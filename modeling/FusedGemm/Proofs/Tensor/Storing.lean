import FusedGemm.Proofs.Tensor.Addressing
import FusedGemm.Tensor.Basic

/-!
# Storing at many coordinates

`Tensor.writeAll` stores one value after the other.  What it leaves in the storage (`storeCodes`) is
settled by three facts: an element that no coordinate addresses keeps its code
(`getElem?_storeCodes_of_forall_ne`), an element that only one coordinate addresses gets the code of
its value (`getElem?_storeCodes_of_mem`), and an element that some coordinate addresses does not
depend on the code before (`getElem?_storeCodes_congr`).

From the first two, `writeAll` at coordinates that share no element *stores* all its values
(`writeAll_stores`), and over the extent of a separating layout it *overwrites* the tensor
(`writeAll_overwrites`); from the third, it forgets the contents of one with a dense layout
(`writeAll_withCodes`).

A tensor is *compact* if its layout reaches every storage element, and two tensors are *alike* if
they differ in name and contents only.
-/

namespace FusedGemm

/-- The first rows of a column. -/
def rowCoords (m : Nat) : List Coord := (List.range m).map fun row => ⟨row, 0, 0⟩

theorem mem_rowCoords {m : Nat} {c : Coord} : c ∈ rowCoords m ↔ ∃ row < m, ⟨row, 0, 0⟩ = c := by
  simp [rowCoords]

namespace Tensor

/-! ### Names -/

/-- The tensor under another name. -/
def renamed (t : Tensor) (name : String) : Tensor := ⟨name, t.type, t.layout, t.codes⟩

/-! ### The storage -/

/-- The storage after the values of `f` have been stored at the coordinates, one after the other. -/
def storeCodes (type : ElementType) (layout : Layout) (f : Coord → ComplexFloat) (cs : List Coord)
    (codes : Array (Code type)) : Array (Code type) :=
  cs.foldl (fun codes c => codes.setIfInBounds (layout.offset c) (type.encode (f c))) codes

theorem writeAll_eq (t : Tensor) (cs : List Coord) (f : Coord → ComplexFloat) :
    t.writeAll cs f = t.withCodes (storeCodes t.type t.layout f cs t.codes) := by
  unfold writeAll storeCodes
  induction cs generalizing t with
  | nil => rfl
  | cons c cs ih => exact ih (t.write c (f c))

section StoreCodes
variable {type : ElementType} {layout : Layout} {f : Coord → ComplexFloat} {cs : List Coord}
  {codes codes' : Array (Code type)} {i : Nat}

@[simp] theorem size_storeCodes : (storeCodes type layout f cs codes).size = codes.size := by
  unfold storeCodes
  induction cs generalizing codes with
  | nil => rfl
  | cons c cs ih => rw [List.foldl_cons, ih, Array.size_setIfInBounds]

/-- An element that no coordinate addresses keeps its code. -/
theorem getElem?_storeCodes_of_forall_ne (h : ∀ c ∈ cs, layout.offset c ≠ i) :
    (storeCodes type layout f cs codes)[i]? = codes[i]? := by
  unfold storeCodes
  induction cs generalizing codes with
  | nil => rfl
  | cons c cs ih =>
    rw [List.foldl_cons, ih fun c' hc' => h c' (List.mem_cons_of_mem _ hc')]
    exact Array.getElem?_setIfInBounds_ne (h c List.mem_cons_self)

/-- An element that only one coordinate addresses gets the code of its value. -/
theorem getElem?_storeCodes_of_mem {c : Coord} (hc : c ∈ cs)
    (huniq : ∀ c' ∈ cs, layout.offset c' = layout.offset c → c' = c)
    (hlt : layout.offset c < codes.size) :
    (storeCodes type layout f cs codes)[layout.offset c]? = some (type.encode (f c)) := by
  induction cs generalizing codes with
  | nil => simp at hc
  | cons d cs ih =>
    by_cases hmem : c ∈ cs
    · exact ih hmem (fun c' hc' => huniq c' (List.mem_cons_of_mem _ hc')) (by simpa using hlt)
    · have hcd : c = d := (List.mem_cons.mp hc).resolve_right hmem
      subst hcd
      -- no later coordinate addresses the element again
      have hne : ∀ c' ∈ cs, layout.offset c' ≠ layout.offset c := fun c' hc' heq =>
        hmem (huniq c' (List.mem_cons_of_mem _ hc') heq ▸ hc')
      show (storeCodes type layout f cs _)[layout.offset c]? = _
      rw [getElem?_storeCodes_of_forall_ne hne]
      simp [hlt]

/-- An element that some coordinate addresses does not depend on its code before. -/
theorem getElem?_storeCodes_congr (hsize : codes.size = codes'.size)
    (h : ∃ c ∈ cs, layout.offset c = i) :
    (storeCodes type layout f cs codes)[i]? = (storeCodes type layout f cs codes')[i]? := by
  induction cs generalizing codes codes' with
  | nil => simp at h
  | cons d cs ih =>
    by_cases hlater : ∃ c ∈ cs, layout.offset c = i
    · exact ih (by simpa using hsize) hlater
    · have hd : layout.offset d = i := by
        obtain ⟨c, hc, heq⟩ := h
        rcases List.mem_cons.mp hc with rfl | hc
        · exact heq
        · exact absurd ⟨c, hc, heq⟩ hlater
      have hne : ∀ c ∈ cs, layout.offset c ≠ i := fun c hc heq => hlater ⟨c, hc, heq⟩
      show (storeCodes type layout f cs _)[i]? = (storeCodes type layout f cs _)[i]?
      rw [getElem?_storeCodes_of_forall_ne hne, getElem?_storeCodes_of_forall_ne hne]
      simp [hd, Array.getElem?_setIfInBounds, hsize]

/-- Storing the same values again changes nothing. -/
theorem storeCodes_storeCodes :
    storeCodes type layout f cs (storeCodes type layout f cs codes) =
      storeCodes type layout f cs codes := by
  refine Array.ext_getElem? fun i => ?_
  by_cases h : ∃ c ∈ cs, layout.offset c = i
  · exact getElem?_storeCodes_congr size_storeCodes h
  · exact getElem?_storeCodes_of_forall_ne fun c hc heq => h ⟨c, hc, heq⟩

/-- Where a layout reaches the whole storage, storing at every coordinate forgets the contents. -/
theorem storeCodes_eq_of_dense (hdense : layout.Dense) (hspan : codes.size = layout.span)
    (hsize : codes.size = codes'.size) :
    storeCodes type layout f layout.extent.coords codes =
      storeCodes type layout f layout.extent.coords codes' := by
  refine Array.ext_getElem? fun i => ?_
  rcases Nat.lt_or_ge i codes.size with hi | hi
  · obtain ⟨c, hc, hoff⟩ := hdense i (hspan ▸ hi)
    exact getElem?_storeCodes_congr hsize ⟨c, Extent.mem_coords.mpr hc, hoff⟩
  · rw [Array.getElem?_eq_none (by simpa using hi), Array.getElem?_eq_none (by simp; omega)]

end StoreCodes

/-! ### Overwriting -/

variable {t : Tensor} {f : Coord → ComplexFloat}

theorem writeAll_congr {g : Coord → ComplexFloat} {cs : List Coord} (h : ∀ c ∈ cs, f c = g c) :
    t.writeAll cs f = t.writeAll cs g :=
  List.foldl_ext _ _ t fun u c hc => by rw [h c hc]

/-- `u` is `t` with the value of `f` stored at each coordinate of its extent, and every element that
no coordinate addresses as it was. -/
def Overwrites (u t : Tensor) (f : Coord → ComplexFloat) : Prop :=
  ∃ codes : Array (Code t.type), u = t.withCodes codes ∧ codes.size = t.codes.size ∧
    (∀ c ∈ t.extent, codes[t.layout.offset c]? = some (t.type.encode (f c))) ∧
    ∀ i, (∀ c ∈ t.extent, t.layout.offset c ≠ i) → codes[i]? = t.codes[i]?

theorem Covers.offset_lt {e : Extent} (h : t.Covers e) {c : Coord} (hc : c ∈ e) :
    t.layout.offset c < t.codes.size := by
  have hspan : (t.layout.withExtent e).offset c < (t.layout.withExtent e).span :=
    Layout.offset_lt_span hc
  exact hspan.trans_le h

theorem offset_lt_size (h : t.Covers t.extent) {c : Coord} (hc : c ∈ t.extent) :
    t.layout.offset c < t.codes.size := h.offset_lt hc

/-- `u` is `t` with the value of `f` stored at each of the coordinates, and every element that none
of them addresses as it was. -/
def Stores (u t : Tensor) (cs : List Coord) (f : Coord → ComplexFloat) : Prop :=
  ∃ codes : Array (Code t.type), u = t.withCodes codes ∧ codes.size = t.codes.size ∧
    (∀ c ∈ cs, codes[t.layout.offset c]? = some (t.type.encode (f c))) ∧
    ∀ i, (∀ c ∈ cs, t.layout.offset c ≠ i) → codes[i]? = t.codes[i]?

/-- Values at coordinates that share no element are all stored. -/
theorem writeAll_stores {cs : List Coord}
    (hsep : ∀ c ∈ cs, ∀ c' ∈ cs, t.layout.offset c = t.layout.offset c' → c = c')
    (hlt : ∀ c ∈ cs, t.layout.offset c < t.codes.size) (f : Coord → ComplexFloat) :
    (t.writeAll cs f).Stores t cs f := by
  refine ⟨_, writeAll_eq t _ f, size_storeCodes, fun c hc => ?_, fun i hi => ?_⟩
  · exact getElem?_storeCodes_of_mem hc (fun c' hc' heq => hsep c' hc' c hc heq) (hlt c hc)
  · exact getElem?_storeCodes_of_forall_ne hi

/-- Values in rows that share no element are all stored. -/
theorem writeAll_rows_stores {m : Nat} (hcov : t.Covers ⟨m, 1, 1⟩)
    (hrows : ∀ row < m, ∀ row' < m,
      t.layout.offset ⟨row, 0, 0⟩ = t.layout.offset ⟨row', 0, 0⟩ → row = row')
    (f : Coord → ComplexFloat) : (t.writeAll (rowCoords m) f).Stores t (rowCoords m) f := by
  refine writeAll_stores (fun c hc c' hc' heq => ?_) (fun c hc => ?_) f
  · obtain ⟨row, hrow, rfl⟩ := mem_rowCoords.mp hc
    obtain ⟨row', hrow', rfl⟩ := mem_rowCoords.mp hc'
    rw [hrows row hrow row' hrow' heq]
  · obtain ⟨row, hrow, rfl⟩ := mem_rowCoords.mp hc
    exact hcov.offset_lt ⟨hrow, Nat.one_pos, Nat.one_pos⟩

/-- What is stored at a coordinate is read there as it has been quantized. -/
theorem Stores.read_eq {u : Tensor} {cs : List Coord} (h : u.Stores t cs f) {c : Coord}
    (hc : c ∈ cs) : u.read c = t.type.quantize (f c) := by
  obtain ⟨codes, rfl, -, hcodes, -⟩ := h
  show t.type.decode (codes.getD (t.layout.offset c) 0) = _
  rw [Array.getD_eq_getD_getElem?, hcodes c hc]
  rfl

/-- What no coordinate shares an element with is read as it was. -/
theorem Stores.read_of_forall_ne {u : Tensor} {cs : List Coord} (h : u.Stores t cs f) {c : Coord}
    (hne : ∀ c' ∈ cs, t.layout.offset c' ≠ t.layout.offset c) : u.read c = t.read c := by
  obtain ⟨codes, rfl, -, -, hkeep⟩ := h
  show t.type.decode (codes.getD (t.layout.offset c) 0) =
    t.type.decode (t.codes.getD (t.layout.offset c) 0)
  rw [Array.getD_eq_getD_getElem?, Array.getD_eq_getD_getElem?, hkeep _ hne]

/-- **Storing a value at every coordinate overwrites the tensor.** -/
theorem writeAll_overwrites (hcov : t.Covers t.extent) (hsep : t.layout.Separates)
    (f : Coord → ComplexFloat) : (t.writeAll t.extent.coords f).Overwrites t f := by
  have hstores : (t.writeAll t.extent.coords f).Stores t t.extent.coords f := writeAll_stores
    (fun c hc c' hc' => hsep c (Extent.mem_coords.mp hc) c' (Extent.mem_coords.mp hc'))
    (fun c hc => offset_lt_size hcov (Extent.mem_coords.mp hc)) f
  obtain ⟨codes, heq, hsize, hcodes, hkeep⟩ := hstores
  exact ⟨codes, heq, hsize, fun c hc => hcodes c (Extent.mem_coords.mpr hc),
    fun i hi => hkeep i fun c hc => hi c (Extent.mem_coords.mp hc)⟩

theorem writeAll_writeAll (t : Tensor) (cs : List Coord) (f : Coord → ComplexFloat) :
    (t.writeAll cs f).writeAll cs f = t.writeAll cs f := by
  rw [writeAll_eq t, writeAll_eq]
  exact congrArg t.withCodes storeCodes_storeCodes

/-- Where a layout reaches the whole storage, storing a value at every coordinate forgets what the
storage held. -/
theorem writeAll_withCodes (hdense : t.layout.Dense) (hspan : t.codes.size = t.layout.span)
    {codes : Array (Code t.type)} (hsize : codes.size = t.codes.size) :
    (t.withCodes codes).writeAll t.extent.coords f = t.writeAll t.extent.coords f := by
  rw [writeAll_eq, writeAll_eq]
  exact congrArg t.withCodes (storeCodes_eq_of_dense hdense (hsize.trans hspan) hsize)

/-! ### Alike tensors -/

variable {u v : Tensor}

/-- The layout reaches every storage element, and none outside the storage. -/
structure Compact (t : Tensor) : Prop where
  size_eq : t.codes.size = t.layout.span
  dense : t.layout.Dense

/-- The tensors have the same type, layout and size. -/
structure Alike (t u : Tensor) : Prop where
  type_eq : u.type = t.type
  layout_eq : u.layout = t.layout
  size_eq : u.codes.size = t.codes.size

theorem Alike.refl (t : Tensor) : Alike t t := ⟨rfl, rfl, rfl⟩

theorem Alike.symm (h : Alike t u) : Alike u t := ⟨h.1.symm, h.2.symm, h.3.symm⟩

theorem Alike.trans (h : Alike t u) (h' : Alike u v) : Alike t v :=
  ⟨h'.1.trans h.1, h'.2.trans h.2, h'.3.trans h.3⟩

theorem Alike.extent_eq (h : Alike t u) : u.extent = t.extent := congrArg Layout.extent h.layout_eq

theorem Covers.of_alike {e : Extent} (h : t.Covers e) (ha : Alike t u) : u.Covers e := by
  unfold Covers
  rw [ha.layout_eq, ha.size_eq]
  exact h

theorem Alike.covers_extent (ha : Alike t u) (h : t.Covers t.extent) : u.Covers u.extent :=
  ha.extent_eq.symm ▸ h.of_alike ha

theorem Compact.of_alike (h : t.Compact) (ha : Alike t u) : u.Compact where
  size_eq := by rw [ha.size_eq, ha.layout_eq, h.size_eq]
  dense := ha.layout_eq ▸ h.dense

theorem Alike.byteSize_eq (h : Alike t u) : u.byteSize = t.byteSize := by
  rw [byteSize, byteSize, h.size_eq, h.type_eq]

theorem alike_put (t : Tensor) (i : Nat) (z : ComplexFloat) : Alike t (t.put i z) :=
  ⟨rfl, rfl, size_put t i z⟩

theorem alike_write (t : Tensor) (c : Coord) (z : ComplexFloat) : Alike t (t.write c z) :=
  alike_put t _ z

theorem alike_writeAll (t : Tensor) (cs : List Coord) (f : Coord → ComplexFloat) :
    Alike t (t.writeAll cs f) := by
  unfold writeAll
  induction cs generalizing t with
  | nil => exact .refl t
  | cons c cs ih => exact (alike_write t c (f c)).trans (ih _)

theorem alike_copyFrom (t source : Tensor) : t.Alike (t.copyFrom source) := alike_writeAll t _ _

theorem alike_zeros (x y : String) (type : ElementType) (layout : Layout) :
    (zeros x type layout).Alike (zeros y type layout) := ⟨rfl, rfl, rfl⟩

/-- Alike tensors differ in name and contents only. -/
theorem Alike.exists_codes (h : Alike t u) : ∃ (codes : Array (Code t.type)) (name : String),
    codes.size = t.codes.size ∧ u = (t.withCodes codes).renamed name := by
  obtain ⟨_, type, layout, _⟩ := t
  obtain ⟨name, type', layout', codes⟩ := u
  obtain ⟨htype, hlayout, hsize⟩ := h
  dsimp only at htype hlayout hsize
  subst htype hlayout
  exact ⟨codes, name, hsize, rfl⟩

end Tensor

end FusedGemm
