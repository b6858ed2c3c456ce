import FusedGemm.Proofs.Tensor.Copying
import FusedGemm.Proofs.Tensor.Ones
import FusedGemm.Proofs.Trial.DeviceView

/-!
# What the operands start with

`A`, `B` and `C` are made from a `Recipe` each: zeros are packed and filled, and a one is stored as
the first element.  A tensor that is *made* by a recipe holds that one, and everywhere else what
the fill alone stores (`Recipe.made_of_eq_ok`).

The identity fill stores zeros in storage order and then ones at the coordinates on the diagonals of
all batches (`Fill.mem_diagonal`).  No two coordinates of a packed tensor share an element, so it
then reads as the identity matrix in every batch (`Tensor.read_fillFrom_identity`).  The first element
is on the diagonal, and the one that comes first changes nothing there.

Once a case is set up, all this holds of the host copies and of what a device has of them
(`Case.contents_of_setUp`).
-/

namespace FusedGemm

/-! ### The diagonal -/

namespace Fill

variable {e : Extent} {c : Coord}

/-- The diagonal has just the coordinates whose row is their column. -/
theorem mem_diagonal : c ∈ diagonal e ↔ c ∈ e ∧ c.row = c.col := by
  unfold diagonal
  simp only [List.mem_map, List.mem_range]
  constructor
  · rintro ⟨n, hn, rfl⟩
    have hside : 0 < min e.rows e.cols := Nat.pos_of_ne_zero fun hzero => by
      rw [hzero, Nat.mul_zero] at hn
      exact Nat.not_lt_zero n hn
    have hmod : n % min e.rows e.cols < min e.rows e.cols := Nat.mod_lt n hside
    have hdiv : n / min e.rows e.cols < e.batch := Nat.div_lt_of_lt_mul (by rwa [Nat.mul_comm])
    exact ⟨⟨hmod.trans_le (Nat.min_le_left _ _), hmod.trans_le (Nat.min_le_right _ _), hdiv⟩, rfl⟩
  · rintro ⟨⟨hrow, hcol, hbatch⟩, heq⟩
    have hlt : c.row < min e.rows e.cols := lt_min hrow (heq ▸ hcol)
    -- batches are numbered by quotients, and rows by remainders
    refine ⟨c.batch * min e.rows e.cols + c.row, ?_, ?_⟩
    · calc c.batch * min e.rows e.cols + c.row
        _ < c.batch * min e.rows e.cols + min e.rows e.cols := by omega
        _ = (c.batch + 1) * min e.rows e.cols := by rw [Nat.add_mul, Nat.one_mul]
        _ ≤ e.batch * min e.rows e.cols := Nat.mul_le_mul_right _ hbatch
    · have hmod : (c.batch * min e.rows e.cols + c.row) % min e.rows e.cols = c.row := by
        rw [Nat.mul_add_mod_self_right, Nat.mod_eq_of_lt hlt]
      have hdiv : (c.batch * min e.rows e.cols + c.row) / min e.rows e.cols = c.batch := by
        rw [Nat.mul_comm, Nat.mul_add_div (Nat.zero_lt_of_lt hlt), Nat.div_eq_of_lt hlt,
          Nat.add_zero]
      rw [hmod, hdiv]
      exact congrArg (fun col => (⟨c.row, col, c.batch⟩ : Coord)) heq

end Fill

namespace Tensor

variable {t u : Tensor} {c : Coord}

/-- The identity fill starts from zeros, whatever the tensor held. -/
theorem get_ofStream_identity (t : Tensor) (seed : UInt64) (i : Nat) :
    (t.ofStream .identity seed).get i = .ofReal 0 := by
  have hstream : ((Fill.stream .identity t.type seed t.codes.size).map t.type.encode).toArray =
      Array.replicate t.codes.size (0 : Code t.type) := by
    show ((List.replicate t.codes.size (.ofReal 0)).map t.type.encode).toArray = _
    rw [List.map_replicate, ElementType.encode_zero, List.toArray_replicate]
  unfold ofStream
  rw [hstream, get_withCodes_replicate]

/-- **The identity fill stores the identity matrix** in every batch. -/
theorem read_fillFrom_identity (hcov : t.Covers t.extent) (hsep : t.layout.Separates)
    (seed : UInt64) (hc : c ∈ t.extent) :
    (t.fillFrom .identity seed).read c = .ofReal (if c.row = c.col then 1 else 0) := by
  have hmem : ∀ c' ∈ Fill.diagonal t.extent, c' ∈ t.extent := fun c' hc' =>
    (Fill.mem_diagonal.mp hc').1
  have hstores : (t.fillFrom .identity seed).Stores (t.ofStream .identity seed)
      (Fill.diagonal t.extent) fun _ => .ofReal 1 := by
    refine writeAll_stores (fun c hc c' hc' => ?_) (fun c hc => ?_) _
    · exact hsep c (hmem c hc) c' (hmem c' hc')
    · rw [(alike_ofStream t .identity seed).size_eq]
      exact offset_lt_size hcov (hmem c hc)
  split_ifs with heq
  · rw [hstores.read_eq (Fill.mem_diagonal.mpr ⟨hc, heq⟩), ElementType.quantize_one]
  · rw [hstores.read_of_forall_ne fun c' hc' hoffset => ?_]
    · exact get_ofStream_identity t seed _
    · -- an element of the diagonal has no other coordinate
      obtain rfl := hsep c' (hmem c' hc') c hc hoffset
      exact heq (Fill.mem_diagonal.mp hc').2

/-! ### A one that comes first -/

theorem withLeadingOne_stores (hcov : t.Covers t.extent) (hpos : 0 < t.count) :
    t.withLeadingOne.Stores t [.origin] fun _ => .ofReal 1 := by
  unfold withLeadingOne
  rw [if_pos hpos]
  show (t.writeAll [.origin] fun _ => .ofReal 1).Stores t [.origin] fun _ => .ofReal 1
  refine writeAll_stores ?_ ?_ _
  · simp
  · simpa using offset_lt_size hcov (Extent.origin_mem hpos)

theorem read?_withLeadingOne (hcov : t.Covers t.extent) (hc : c ∈ t.extent) :
    t.withLeadingOne.read? c = some (t.withLeadingOne.read c) := by
  have halike := alike_withLeadingOne t
  exact read?_eq_some (halike.covers_extent hcov) (halike.extent_eq ▸ hc)

theorem read?_withLeadingOne_origin (hcov : t.Covers t.extent) (hpos : 0 < t.count) :
    t.withLeadingOne.read? .origin = some (.ofReal 1) := by
  rw [read?_withLeadingOne hcov (Extent.origin_mem hpos),
    (withLeadingOne_stores hcov hpos).read_eq List.mem_cons_self, ElementType.quantize_one]

theorem read?_withLeadingOne_of_ne (hcov : t.Covers t.extent) (hsep : t.layout.Separates)
    (hc : c ∈ t.extent) (hne : c ≠ .origin) :
    t.withLeadingOne.read? c = some (t.read c) := by
  have hpos : 0 < t.count := Extent.count_pos_of_mem hc
  have hoffset : ∀ c' ∈ [Coord.origin], t.layout.offset c' ≠ t.layout.offset c := by
    intro c' hc' heq
    obtain rfl := List.mem_singleton.mp hc'
    exact hne (hsep _ (Extent.origin_mem hpos) c hc heq).symm
  rw [read?_withLeadingOne hcov hc, (withLeadingOne_stores hcov hpos).read_of_forall_ne hoffset]

theorem sameCode?_withLeadingOne (hcov : t.Covers t.extent) {i : Nat} (hi : i < t.codes.size)
    (hne : i ≠ t.layout.offset .origin) : t.withLeadingOne.sameCode? i t i = some true := by
  have halike := alike_withLeadingOne t
  have hi' : i < t.withLeadingOne.codes.size := hi.trans_eq halike.size_eq.symm
  refine (sameCode?_eq_some_true_iff halike.type_eq).mpr ⟨⟨hi', hi⟩, ?_⟩
  by_cases hpos : 0 < t.count
  · obtain ⟨codes, heq, -, -, hkeep⟩ := withLeadingOne_stores hcov hpos
    have hcode : codes[i]? = t.codes[i]? := hkeep i fun c hc => by
      obtain rfl := List.mem_singleton.mp hc
      exact hne.symm
    rw [heq]
    show (codes.getD i 0).toNat = _
    rw [Array.getD_eq_getD_getElem?, hcode, ← Array.getD_eq_getD_getElem?]
  · rw [withLeadingOne, if_neg hpos]

/-- After the identity fill a one that comes first changes nothing. -/
theorem read?_withLeadingOne_identity (hcov : t.Covers t.extent) (hsep : t.layout.Separates)
    (seed : UInt64) (hc : c ∈ t.extent) : (t.fillFrom .identity seed).withLeadingOne.read? c =
      some (.ofReal (if c.row = c.col then 1 else 0)) := by
  have halike := alike_fillFrom t .identity seed
  have hcov' := halike.covers_extent hcov
  have hc' : c ∈ (t.fillFrom .identity seed).extent := halike.extent_eq ▸ hc
  by_cases horigin : c = .origin
  · subst horigin
    exact read?_withLeadingOne_origin hcov' (Extent.count_pos_of_mem hc')
  · rw [read?_withLeadingOne_of_ne hcov' (halike.layout_eq ▸ hsep) hc' horigin,
      read_fillFrom_identity hcov hsep seed hc]

end Tensor

/-! ### What a recipe makes -/

namespace Recipe

variable {r : Recipe} {t : Tensor}

/-- What the fill alone makes of zeros of a layout. -/
def filled (r : Recipe) (layout : Layout) : Tensor :=
  (Tensor.zeros r.name r.type layout).fillFrom r.fill r.seed

/-- The tensor starts with a one, if it has an element, and holds elsewhere what the fill stores in
zeros of its type and layout.  After the identity fill that is the identity matrix in every
batch. -/
structure Made (r : Recipe) (t : Tensor) : Prop where
  type_eq : t.type = r.type
  layout_eq : r.order.packed? r.extent = some t.layout
  size_eq : t.codes.size = r.extent.count
  first : 0 < r.extent.count → t.read? .origin = some (.ofReal 1)
  others : ∀ i < t.codes.size, i ≠ t.layout.offset .origin →
    t.sameCode? i (r.filled t.layout) i = some true
  identity : r.fill = .identity → ∀ c ∈ r.extent,
    t.read? c = some (.ofReal (if c.row = c.col then 1 else 0))

/-- **What a recipe makes**, whatever the order and the element type. -/
theorem made_of_eq_ok (h : r.tensor = .ok t) : r.Made t := by
  obtain ⟨u, hu, rfl⟩ := exists_of_eq_ok h
  obtain ⟨layout, hl, rfl⟩ := Tensor.packed_eq_ok hu
  have hextent : (Tensor.zeros r.name r.type layout).extent = r.extent :=
    MatrixOrder.extent_of_packed? hl
  have hcov := Tensor.covers_zeros r.name r.type layout
  have hfilled := Tensor.alike_fillFrom (.zeros r.name r.type layout) r.fill r.seed
  have hmade := hfilled.trans (Tensor.alike_withLeadingOne _)
  have hcov' := hfilled.covers_extent hcov
  have hcount : (r.filled layout).count = r.extent.count :=
    congrArg Extent.count (hfilled.extent_eq.trans hextent)
  exact {
    type_eq := hmade.type_eq
    layout_eq := by rw [hmade.layout_eq, hl]; rfl
    size_eq := by
      rw [hmade.size_eq, Tensor.size_zeros, MatrixOrder.span_of_packed? hl]
    first := fun hpos => Tensor.read?_withLeadingOne_origin hcov' (hcount ▸ hpos)
    others := fun i hi hne => by
      have hlayout := hmade.layout_eq
      rw [(Tensor.alike_withLeadingOne _).size_eq] at hi
      rw [hlayout] at hne ⊢
      exact Tensor.sameCode?_withLeadingOne hcov' hi (hfilled.layout_eq ▸ hne)
    identity := fun hfill c hc => by
      rw [hfill]
      refine Tensor.read?_withLeadingOne_identity hcov ?_ r.seed (hextent ▸ hc)
      exact MatrixOrder.separates_of_packed? hl }

end Recipe

/-! ### The operands of a case -/

/-- The operand is made by the recipe, and the device has it: unless it is empty there is an
allocation with its bytes, and a kernel that loads it gets the host copy. -/
structure Staged.MadeFrom (device : Device) (r : Recipe) (staged : Staged) : Prop where
  host : r.Made staged.host
  pointer_ne_null : 0 < r.extent.count → staged.pointer ≠ .null
  contents_eq : 0 < r.extent.count → device.contents? staged.pointer = some staged.host.bytes
  load_eq : ∀ name, device.load name staged.argument = .ok (staged.host.renamed name)

theorem Staged.Served.madeFrom {device : Device} {staged : Staged} {r : Recipe}
    (h : staged.Served device) (hb : staged.buffer.isSome = true)
    (hmade : r.tensor = .ok staged.host) : staged.MadeFrom device r := by
  have hhost := Recipe.made_of_eq_ok hmade
  have hcontents : 0 < r.extent.count → staged.pointer ≠ .null ∧
      device.contents? staged.pointer = some staged.host.bytes := fun hpos =>
    h.contents_of_pos hb (hhost.size_eq ▸ hpos)
  exact ⟨hhost, fun hpos => (hcontents hpos).1, fun hpos => (hcontents hpos).2, h.load_argument hb⟩

/-- **What the operands start with.**  Once a case is set up, on the host and in device memory each
of `A`, `B` and `C` that is not empty starts with a one, and holds elsewhere what its fill stores
from its seed in zeros of the same type and layout.  After the identity fill it is the identity
matrix in every batch. -/
theorem Case.contents_of_setUp {config : Config} {p : Problem} {x y : Float}
    {device placed : Device} {case : Case} (hd : device.Sound)
    (hset : Case.setUp config p x y device = (.ok case, placed)) :
    case.operands.a.MadeFrom placed (config.leftRecipe p) ∧
      case.operands.b.MadeFrom placed (config.rightRecipe p) ∧
      case.operands.c.MadeFrom placed (config.addendRecipe p) := by
  have h := materialized_of_setUp hd hset
  have ha := h.served (by simp [Operands.toList]) h.left.1.compact
  have hb := h.served (by simp [Operands.toList]) h.right.1.compact
  have hc := h.served (by simp [Operands.toList]) h.addend.1.compact
  exact ⟨ha.madeFrom h.left.2 h.left_planned.1, hb.madeFrom h.right.2 h.right_planned.1,
    hc.madeFrom h.addend.2 h.addend_planned.1⟩

/-- The complex identity in column-major order on the left, and 8-bit floats on the right. -/
def unitLeft : Config where
  typeA := .c32
  typeB := .f8e4m3
  orderA := .columnMajor
  fillA := .identity

/-- Two products of a matrix with more columns than rows. -/
def wideProducts : Problem := ⟨2, 2, 3, 2, Nat.two_pos⟩

theorem Case.contents_of_setUp_unitLeft : ({} : Device).Sound ∧ ∃ case placed,
    Case.setUp unitLeft wideProducts 1 0 {} = (.ok case, placed) ∧
    case.operands.a.host.read? ⟨1, 1, 1⟩ = some (.ofReal 1) ∧
    case.operands.a.host.read? ⟨1, 2, 1⟩ = some (.ofReal 0) ∧
    case.operands.b.host.read? .origin = some (.ofReal 1) ∧
    placed.contents? case.operands.b.pointer = some case.operands.b.host.bytes := by
  have hd : ({} : Device).Sound := Device.sound_empty none
  obtain ⟨case, placed, hset⟩ : ∃ case placed,
      Case.setUp unitLeft wideProducts 1 0 {} = (.ok case, placed) := ⟨_, _, rfl⟩
  obtain ⟨ha, hb, -⟩ := Case.contents_of_setUp hd hset
  have hpos : 0 < wideProducts.rightExtent.count := by decide
  exact ⟨hd, case, placed, hset, ha.host.identity rfl ⟨1, 1, 1⟩ (by decide),
    ha.host.identity rfl ⟨1, 2, 1⟩ (by decide), hb.host.first hpos, hb.contents_eq hpos⟩

end FusedGemm
