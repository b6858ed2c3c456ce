import FusedGemm.Proofs.Tensor.Storing

/-!
# Storage bounds

Offsets and spans are computed in 64 bits, one product and one sum after the other.  No step exceeds
the result, so a computation that is checked at each step (`Layout.offset?`, `Layout.span?`,
`Layout.reach?`) gives the exact number where that is addressable and nothing otherwise.  Offsets
are below the span and the last coordinate reaches it, whatever the strides are.  So a tensor whose
storage is as large as its layout spans is read, written, copied, measured and filled without an
access outside it (`Layout.span?_bounds`).
-/

namespace FusedGemm

/-! ### Addressable numbers -/

namespace AddressSpace

variable {m n : Nat}

theorem limit_pos : 0 < limit := by decide

theorem mul?_of_lt (h : m * n < limit) : mul? m n = some (m * n) :=
  mul?_eq_some_iff.mpr ⟨h, rfl⟩

theorem eq_check_of_iff {x : Option Nat} (h : ∀ s, x = some s ↔ n < limit ∧ n = s) :
    x = check n := by
  refine Option.ext fun s => ?_
  rw [h, check_eq_some_iff]

end AddressSpace

/-- The last coordinate of an extent that is not empty. -/
def Extent.last (e : Extent) : Coord := ⟨e.rows - 1, e.cols - 1, e.batch - 1⟩

theorem Extent.last_mem {e : Extent} (h : e.isEmpty = false) : e.last ∈ e := by
  simp only [isEmpty, Bool.or_eq_false_iff, beq_eq_false_iff_ne] at h
  obtain ⟨⟨hr, hc⟩, hb⟩ := h
  exact ⟨Nat.sub_one_lt hr, Nat.sub_one_lt hc, Nat.sub_one_lt hb⟩

/-! ### Checked computations -/

namespace Layout

open AddressSpace

variable {layout : Layout} {c : Coord} {s : Nat}

/-- The offset of a coordinate, each step of whose computation is checked on its own. -/
def offset? (layout : Layout) (c : Coord) : Option Nat := do
  let row ← mul? c.row layout.stride.row
  let col ← mul? c.col layout.stride.col
  let upper ← add? row col
  let batch ← mul? c.batch layout.stride.batch
  add? upper batch

/-- The index after the offset of the last coordinate, each step of whose computation is checked on
its own. -/
def reach? (layout : Layout) : Option Nat :=
  if layout.extent.isEmpty then some 0
  else do
    let last ← layout.offset? layout.extent.last
    add? last 1

theorem offset?_eq_some_iff :
    layout.offset? c = some s ↔ layout.offset c < limit ∧ layout.offset c = s := by
  simp only [offset?, Option.bind_eq_bind, Option.bind_eq_some_iff, mul?_eq_some_iff,
    add?_eq_some_iff]
  constructor
  · rintro ⟨_, ⟨-, rfl⟩, _, ⟨-, rfl⟩, _, ⟨-, rfl⟩, _, ⟨-, rfl⟩, hlt, rfl⟩
    exact ⟨hlt, rfl⟩
  · unfold offset
    rintro ⟨hlt, rfl⟩
    exact ⟨_, ⟨by omega, rfl⟩, _, ⟨by omega, rfl⟩, _, ⟨by omega, rfl⟩, _, ⟨by omega, rfl⟩, hlt, rfl⟩

theorem span_of_isEmpty (h : layout.extent.isEmpty = true) : layout.span = 0 := if_pos h

theorem span_of_not_isEmpty (h : layout.extent.isEmpty = false) :
    layout.span = layout.offset layout.extent.last + 1 := if_neg (by simp [h])

theorem reach?_eq_check (layout : Layout) : layout.reach? = check layout.span := by
  refine eq_check_of_iff fun s => ?_
  unfold reach?
  cases hempty : layout.extent.isEmpty with
  | true => simp [span_of_isEmpty hempty, limit_pos]
  | false =>
    simp only [Bool.false_eq_true, if_false, Option.bind_eq_bind, Option.bind_eq_some_iff,
      offset?_eq_some_iff, add?_eq_some_iff, span_of_not_isEmpty hempty]
    constructor
    · rintro ⟨_, ⟨-, rfl⟩, hlt, rfl⟩
      exact ⟨hlt, rfl⟩
    · rintro ⟨hlt, rfl⟩
      exact ⟨_, ⟨by omega, rfl⟩, hlt, rfl⟩

/-- The span is computed with the same products and sums as the last offset. -/
theorem span?_eq_reach? (layout : Layout) : layout.span? = layout.reach? := by
  unfold span? reach? offset? Extent.last
  simp only [Option.bind_eq_bind, Option.bind_assoc]

theorem span?_eq_check (layout : Layout) : layout.span? = check layout.span := by
  rw [span?_eq_reach?, reach?_eq_check]

theorem span?_eq_some_iff : layout.span? = some s ↔ layout.span < limit ∧ layout.span = s := by
  rw [span?_eq_check, check_eq_some_iff]

/-- A span that is below the limit is computed without leaving the address space. -/
theorem span?_of_lt (h : layout.span < limit) : layout.span? = some layout.span :=
  span?_eq_some_iff.mpr ⟨h, rfl⟩

theorem offset?_of_span?_eq_some (h : layout.span? = some s) (hc : c ∈ layout.extent) :
    layout.offset? c = some (layout.offset c) := by
  have hlt := offset_lt_span hc
  have hspan := (span?_eq_some_iff.mp h).1
  exact offset?_eq_some_iff.mpr ⟨by omega, rfl⟩

/-- The span reaches just to the last coordinate. -/
theorem exists_offset_eq (h : 0 < layout.span) :
    ∃ c ∈ layout.extent, layout.offset c = layout.span - 1 := by
  cases hempty : layout.extent.isEmpty with
  | true => exact absurd (span_of_isEmpty hempty) h.ne'
  | false =>
    exact ⟨_, Extent.last_mem hempty, by rw [span_of_not_isEmpty hempty, Nat.add_sub_cancel]⟩

end Layout

/-! ### Checked traversals -/

/-- A fold whose steps all succeed gives the fold of what they give. -/
theorem foldlM_eq_some {α β : Type} {f : β → α → Option β} {g : β → α → β} (Inv : β → Prop)
    {xs : List α} (hstep : ∀ y, Inv y → ∀ x ∈ xs, f y x = some (g y x) ∧ Inv (g y x)) {y : β}
    (hy : Inv y) : xs.foldlM f y = some (xs.foldl g y) := by
  induction xs generalizing y with
  | nil => rfl
  | cons x xs ih =>
    obtain ⟨hf, hg⟩ := hstep y hy x List.mem_cons_self
    rw [List.foldlM_cons, hf, List.foldl_cons]
    exact ih (fun y hy x hx => hstep y hy x (List.mem_cons_of_mem _ hx)) hg

namespace Tensor

variable {t u : Tensor}

/-- `copyFrom`, each access of which is checked. -/
def copyChecked? (t source : Tensor) : Option Tensor :=
  t.extent.coords.foldlM (fun u c => do u.write? c (← source.read? c)) t

/-- `norm`, each access of which is checked. -/
def normChecked? (t : Tensor) : Option Float := do
  let sum ← t.extent.coords.foldlM (fun sum c => do return sum + (← t.read? c).normSquared) (-0.0)
  return sum.sqrt

/-- `fill`, one element after the other and each access checked. -/
def fillChecked? (t : Tensor) (x : Float) : Option Tensor :=
  (List.range t.codes.size).foldlM (fun u i => u.put? i (.ofReal x)) t

theorem read?_eq_some (h : t.Covers t.extent) {c : Coord} (hc : c ∈ t.extent) :
    t.read? c = some (t.read c) := if_pos (offset_lt_size h hc)

theorem write?_eq_some (h : t.Covers t.extent) {c : Coord} (hc : c ∈ t.extent) (z : ComplexFloat) :
    t.write? c z = some (t.write c z) := if_pos (offset_lt_size h hc)

theorem copyChecked?_eq_some (ht : t.Covers t.extent) (hu : u.Covers u.extent)
    (he : u.extent = t.extent) : t.copyChecked? u = some (t.copyFrom u) := by
  refine foldlM_eq_some t.Alike (fun v hv c hc => ?_) (.refl t)
  have hc := Extent.mem_coords.mp hc
  refine ⟨?_, hv.trans (alike_write v c _)⟩
  rw [read?_eq_some hu (he ▸ hc)]
  exact write?_eq_some (hv.covers_extent ht) (hv.extent_eq ▸ hc) _

theorem normChecked?_eq_some (ht : t.Covers t.extent) : t.normChecked? = some t.norm := by
  have hsum : t.extent.coords.foldlM (fun sum c => do return sum + (← t.read? c).normSquared)
      (-0.0) = some (t.extent.coords.foldl (fun sum c => sum + (t.read c).normSquared) (-0.0)) := by
    refine foldlM_eq_some (fun _ => True) (fun sum _ c hc => ?_) trivial
    rw [read?_eq_some ht (Extent.mem_coords.mp hc)]
    exact ⟨rfl, trivial⟩
  unfold normChecked?
  rw [hsum]
  rfl

/-- Storing a number at the first indices is storing it at the rows of a column. -/
theorem foldl_put (t : Tensor) (n : Nat) (z : ComplexFloat) :
    (List.range n).foldl (fun u i => u.put i z) t = t.withCodes (storeCodes t.type (.vector n)
      (fun _ => z) (rowCoords n) t.codes) := by
  unfold storeCodes rowCoords
  rw [List.foldl_map]
  simp only [Layout.offset_vector]
  generalize List.range n = is
  induction is generalizing t with
  | nil => rfl
  | cons i is ih => exact ih (t.put i z)

theorem fillChecked?_eq_some (t : Tensor) (x : Float) : t.fillChecked? x = some (t.fill x) := by
  have hfold : t.fillChecked? x =
      some ((List.range t.codes.size).foldl (fun u i => u.put i (.ofReal x)) t) := by
    refine foldlM_eq_some t.Alike (fun v hv i hi => ?_) (.refl t)
    refine ⟨if_pos ?_, hv.trans (alike_put v i _)⟩
    rw [hv.size_eq]
    exact List.mem_range.mp hi
  rw [hfold, foldl_put]
  refine congrArg (some ∘ t.withCodes) (Array.ext (by simp) fun i hi _ => ?_)
  have hi : i < t.codes.size := by simpa using hi
  have hcode : (storeCodes t.type (.vector t.codes.size) (fun _ => .ofReal x)
      (rowCoords t.codes.size) t.codes)[(Layout.vector t.codes.size).offset ⟨i, 0, 0⟩]? =
        some (t.type.encode (.ofReal x)) := by
    refine getElem?_storeCodes_of_mem (mem_rowCoords.mpr ⟨i, hi, rfl⟩) ?_ ?_
    · simp [mem_rowCoords, Layout.offset_vector]
    · simpa [Layout.offset_vector] using hi
  rw [Layout.offset_vector] at hcode
  rw [Array.getElem_replicate]
  exact Array.getElem_eq_iff.mpr hcode

/-- What is done with a tensor touches only its storage: reading and writing at the coordinates of
its extent, measuring and filling it, and copying from or to a tensor that has its extent. -/
structure Contained (t : Tensor) : Prop where
  read : ∀ c ∈ t.extent, t.read? c = some (t.read c)
  write : ∀ c ∈ t.extent, ∀ z, t.write? c z = some (t.write c z)
  norm : t.normChecked? = some t.norm
  fill : ∀ x, t.fillChecked? x = some (t.fill x)
  copyFrom : ∀ u : Tensor, u.extent = t.extent → u.Covers u.extent →
    t.copyChecked? u = some (t.copyFrom u)
  copyTo : ∀ u : Tensor, u.extent = t.extent → u.Covers u.extent →
    u.copyChecked? t = some (u.copyFrom t)

theorem Covers.contained (h : t.Covers t.extent) : t.Contained where
  read _ hc := read?_eq_some h hc
  write _ hc z := write?_eq_some h hc z
  norm := normChecked?_eq_some h
  fill x := t.fillChecked?_eq_some x
  copyFrom _ he hu := copyChecked?_eq_some h hu he
  copyTo _ he hu := copyChecked?_eq_some hu h he.symm

theorem covers_zeros (name : String) (type : ElementType) (layout : Layout) :
    (zeros name type layout).Covers layout.extent := (size_zeros name type layout).ge

end Tensor

/-! ### The bound -/

/-- **The storage bound of a layout**, whatever its strides are.  Its span is computed exactly where
it is addressable.  Then so is every offset, all of them are below the span and one of them just so,
and nothing that is done with a tensor made for the layout leaves its storage. -/
theorem Layout.span?_bounds (layout : Layout) :
    let e := layout.extent
    let exact := 1 + (e.rows - 1) * layout.stride.row + (e.cols - 1) * layout.stride.col +
      (e.batch - 1) * layout.stride.batch
    (layout.span? = if e.rows = 0 ∨ e.cols = 0 ∨ e.batch = 0 then some 0
      else if exact < AddressSpace.limit then some exact else none) ∧
    ∀ s, layout.span? = some s →
      layout.reach? = some s ∧ layout.span = s ∧
      (∀ c ∈ e, layout.offset? c = some (layout.offset c) ∧ layout.offset c < s) ∧
      (0 < s → ∃ c ∈ e, layout.offset c = s - 1) ∧
      ∀ (name : String) (type : ElementType) (t : Tensor),
        (Tensor.zeros name type layout).Alike t → t.Contained := by
  intro e exact
  refine ⟨?_, fun s hs => ?_⟩
  · have hempty : e.isEmpty = true ↔ e.rows = 0 ∨ e.cols = 0 ∨ e.batch = 0 := by
      simp only [Extent.isEmpty, Bool.or_eq_true, beq_iff_eq, or_assoc]
    rw [span?_eq_check]
    split_ifs with h hlt
    · rw [span_of_isEmpty (hempty.mpr h)]
      rfl
    all_goals
      have hspan : layout.span = exact := by
        rw [span_of_not_isEmpty (Bool.eq_false_iff.mpr (mt hempty.mp h))]
        show (e.rows - 1) * _ + (e.cols - 1) * _ + (e.batch - 1) * _ + 1 = 1 + _ + _ + _
        omega
      rw [hspan]
    · exact if_pos hlt
    · exact if_neg hlt
  · obtain ⟨-, rfl⟩ := span?_eq_some_iff.mp hs
    refine ⟨span?_eq_reach? layout ▸ hs, rfl, fun c hc => ?_, exists_offset_eq, ?_⟩
    · exact ⟨offset?_of_span?_eq_some hs hc, offset_lt_span hc⟩
    · intro name type t halike
      exact (halike.covers_extent (Tensor.covers_zeros name type layout)).contained

/-- Two rows and two batches whose strides take the span to the last addressable number. -/
def Layout.widest : Layout := ⟨⟨2, 1, 2⟩, ⟨2 ^ 63, 0, 2 ^ 63 - 2⟩⟩

theorem Layout.span?_bounds_widest : widest.span? = some (AddressSpace.limit - 1) ∧
    ∃ c ∈ widest.extent, widest.offset c = AddressSpace.limit - 2 := by
  have hspan : widest.span? = some (AddressSpace.limit - 1) := by decide
  obtain ⟨-, -, -, hlast, -⟩ := (span?_bounds widest).2 _ hspan
  exact ⟨hspan, hlast (by decide)⟩

end FusedGemm
