import FusedGemm.Proofs.Tensor.Bounds
import FusedGemm.Proofs.Trial.PlannedOperands

/-!
# Packed tensors

A packed tensor of at least one batch can be made if and only if the number of its bytes is
addressable (`Tensor.packed_eq_error_iff`).  Its offsets are then those below the number of its
elements, each of one coordinate, so that what is stored at one coordinate is read there and nowhere
else (`Tensor.packed_bijection`).
-/

namespace FusedGemm

namespace Extent

variable {e : Extent}

/-- The number of elements, each step of whose computation is checked on its own. -/
def count? (e : Extent) : Option Nat := do
  let matrix ← AddressSpace.mul? e.rows e.cols
  AddressSpace.mul? matrix e.batch

/-- With a batch, no step exceeds the number of elements. -/
theorem matrix_lt (hb : 0 < e.batch) (h : e.count < AddressSpace.limit) :
    e.rows * e.cols < AddressSpace.limit :=
  (Nat.le_mul_of_pos_right (e.rows * e.cols) hb).trans_lt h

theorem count?_of_lt (hb : 0 < e.batch) (h : e.count < AddressSpace.limit) :
    e.count? = some e.count := by
  unfold count?
  rw [AddressSpace.mul?_of_lt (matrix_lt hb h), Option.bind_eq_bind, Option.bind_some]
  exact AddressSpace.mul?_of_lt h

end Extent

theorem MatrixOrder.exists_packed? (order : MatrixOrder) {e : Extent} (hb : 0 < e.batch)
    (h : e.count < AddressSpace.limit) : ∃ layout, order.packed? e = some layout := by
  unfold packed?
  rw [AddressSpace.mul?_of_lt (Extent.matrix_lt hb h), Option.bind_eq_bind, Option.bind_some,
    AddressSpace.mul?_of_lt h, Option.bind_some]
  cases order <;> exact ⟨_, rfl⟩

/-! ### Which tensors can be packed -/

namespace Tensor

variable {name : String} {type : ElementType} {order : MatrixOrder} {e : Extent} {t u : Tensor}
  {failure : Failure}

theorem count_lt_of_bytes_lt (h : e.count * type.size < AddressSpace.limit) :
    e.count < AddressSpace.limit :=
  (Nat.le_mul_of_pos_right e.count type.size_pos).trans_lt h

theorem packed?_eq_some_iff : packed? name type order e = some t ↔ ∃ layout,
    order.packed? e = some layout ∧ e.count * type.size < AddressSpace.limit ∧
      zeros name type layout = t := by
  simp only [packed?, Option.bind_eq_bind, Option.bind_eq_some_iff, Layout.span?_eq_some_iff,
    AddressSpace.mul?_eq_some_iff, Option.some.injEq]
  constructor
  · rintro ⟨layout, hl, _, ⟨-, rfl⟩, _, ⟨hlt, -⟩, rfl⟩
    exact ⟨layout, hl, MatrixOrder.span_of_packed? hl ▸ hlt, rfl⟩
  · rintro ⟨layout, hl, hlt, rfl⟩
    have hspan := MatrixOrder.span_of_packed? hl
    exact ⟨layout, hl, _, ⟨hspan ▸ count_lt_of_bytes_lt hlt, rfl⟩, _, ⟨hspan ▸ hlt, rfl⟩, rfl⟩

theorem packed_eq_ok_iff :
    packed name type order e = .ok t ↔ packed? name type order e = some t := by
  unfold packed
  cases packed? name type order e <;> simp

theorem bytes_lt_of_packed_eq_ok (h : packed name type order e = .ok t) :
    e.count * type.size < AddressSpace.limit := by
  obtain ⟨-, -, hlt, -⟩ := packed?_eq_some_iff.mp (packed_eq_ok_iff.mp h)
  exact hlt

/-- A packed tensor of addressable size can be made. -/
theorem exists_packed (name : String) (order : MatrixOrder) (hb : 0 < e.batch)
    (h : e.count * type.size < AddressSpace.limit) : ∃ t, packed name type order e = .ok t := by
  obtain ⟨layout, hl⟩ := order.exists_packed? hb (count_lt_of_bytes_lt h)
  exact ⟨_, packed_eq_ok_iff.mpr (packed?_eq_some_iff.mpr ⟨layout, hl, h, rfl⟩)⟩

theorem byteSize_of_packed (h : packed name type order e = .ok t) :
    t.byteSize = e.count * type.size := by
  obtain ⟨layout, hl, rfl⟩ := packed_eq_ok h
  rw [byteSize, size_zeros, MatrixOrder.span_of_packed? hl]
  rfl

/-- **Packing fails just where the bytes are not addressable**, and says what was too large. -/
theorem packed_eq_error_iff (hb : 0 < e.batch) : packed name type order e = .error failure ↔
    failure = .oversized name e ∧ AddressSpace.limit ≤ e.count * type.size := by
  constructor
  · intro h
    refine ⟨?_, Nat.le_of_not_lt fun hlt => ?_⟩
    · unfold packed at h
      cases hp : packed? name type order e with
      | none =>
        rw [hp] at h
        exact (Except.error.inj h).symm
      | some t =>
        rw [hp] at h
        cases h
    · obtain ⟨t, ht⟩ := exists_packed name order hb hlt
      cases h.symm.trans ht
  · rintro ⟨rfl, hle⟩
    unfold packed
    cases hp : packed? name type order e with
    | none => rfl
    | some t =>
      obtain ⟨-, -, hlt, -⟩ := packed?_eq_some_iff.mp hp
      exact absurd hlt (Nat.not_lt.mpr hle)

/-! ### One coordinate for each element -/

theorem bijOn_offset (h : order.packed? e = some t.layout) :
    Set.BijOn t.layout.offset {c | c ∈ e} (Set.Iio e.count) := by
  have hextent := MatrixOrder.extent_of_packed? h
  refine ⟨fun c hc => ?_, fun c hc c' hc' heq => ?_, fun i hi => ?_⟩
  · show t.layout.offset c < e.count
    rw [← MatrixOrder.span_of_packed? h]
    exact Layout.offset_lt_span (hextent ▸ hc)
  · exact MatrixOrder.separates_of_packed? h c (hextent ▸ hc) c' (hextent ▸ hc') heq
  · obtain ⟨c, hc, hoffset⟩ := MatrixOrder.dense_of_packed? h i
      (by rw [MatrixOrder.span_of_packed? h]; exact hi)
    exact ⟨c, hextent ▸ hc, hoffset⟩

/-- What is stored at one coordinate of a separating layout is read there and nowhere else. -/
theorem write_isolated (hcov : u.Covers u.extent) (hsep : u.layout.Separates) {c : Coord}
    (hc : c ∈ u.extent) (z : ComplexFloat) : ∃ u', u.write? c z = some u' ∧
      u'.Stores u [c] (fun _ => z) ∧ u'.read? c = some (u.type.quantize z) ∧
      ∀ c' ∈ u.extent, c' ≠ c → u'.read? c' = u.read? c' := by
  have hstores : (u.write c z).Stores u [c] fun _ => z := by
    show (u.writeAll [c] fun _ => z).Stores u [c] fun _ => z
    refine writeAll_stores ?_ ?_ _
    · simp
    · simpa using offset_lt_size hcov hc
  have hcov' : (u.write c z).Covers (u.write c z).extent := hcov.of_alike (alike_write u c z)
  refine ⟨u.write c z, write?_eq_some hcov hc z, hstores, ?_, fun c' hc' hne => ?_⟩
  · rw [read?_eq_some hcov' hc, hstores.read_eq List.mem_cons_self]
  · rw [read?_eq_some hcov' hc', read?_eq_some hcov hc']
    refine congrArg some (get_put_of_ne u (fun heq => hne ?_) z)
    exact hsep c' hc' c hc heq.symm

/-- **Packed tensors number their elements.**  With a batch, a packed tensor can be made where the
number of its bytes is addressable, and otherwise the failure has its name and extent.  Its offsets
number the coordinates from zero to the number of elements without leaving the address space.  So
whatever it holds, what is stored at one coordinate is read there, and no other one is changed. -/
theorem packed_bijection (name : String) (type : ElementType) (order : MatrixOrder) {e : Extent}
    (hb : 1 ≤ e.batch) :
    let count := e.rows * e.cols * e.batch
    (∀ failure, packed name type order e = .error failure ↔
      failure = .oversized name e ∧ AddressSpace.limit ≤ count * type.size) ∧
    ∀ t, packed name type order e = .ok t →
      t.extent = e ∧ t.layout.span = count ∧ t.layout.reach? = some count ∧
      t.layout.span? = some count ∧ e.count? = some count ∧
      (∀ c ∈ e, t.layout.offset? c = some (t.layout.offset c)) ∧
      Set.BijOn t.layout.offset {c | c ∈ e} (Set.Iio t.layout.span) ∧
      ∀ u, t.Alike u → ∀ c ∈ e, ∀ z, ∃ u', u.write? c z = some u' ∧
        u'.Stores u [c] (fun _ => z) ∧ u'.read? c = some (type.quantize z) ∧
        ∀ c' ∈ e, c' ≠ c → u'.read? c' = u.read? c' := by
  intro count
  refine ⟨fun failure => packed_eq_error_iff hb, fun t ht => ?_⟩
  have hlt := count_lt_of_bytes_lt (bytes_lt_of_packed_eq_ok ht)
  obtain ⟨layout, hl, rfl⟩ := packed_eq_ok ht
  obtain rfl := MatrixOrder.extent_of_packed? hl
  have hspan : layout.span = count := MatrixOrder.span_of_packed? hl
  have hspan? : layout.span? = some count := Layout.span?_eq_some_iff.mpr ⟨hspan ▸ hlt, hspan⟩
  refine ⟨rfl, hspan, layout.span?_eq_reach? ▸ hspan?, hspan?, Extent.count?_of_lt hb hlt,
    fun c hc => Layout.offset?_of_span?_eq_some hspan? hc, ?_, fun u hu c hc z => ?_⟩
  · rw [show (zeros name type layout).layout.span = _ from hspan]
    exact bijOn_offset (t := zeros name type layout) hl
  · have hcov : u.Covers u.extent := hu.covers_extent (covers_zeros name type layout)
    have hsep : u.layout.Separates := by
      rw [hu.layout_eq]
      exact MatrixOrder.separates_of_packed? hl
    have hextent : u.extent = layout.extent := hu.extent_eq
    have htype : u.type = type := hu.type_eq
    rw [← hextent] at hc ⊢
    rw [← htype]
    exact write_isolated hcov hsep hc z

/-- Three batches of matrices of 16-bit elements in column-major order. -/
theorem packed_bijection_batches : 1 ≤ (⟨2, 5, 3⟩ : Extent).batch ∧ ∃ t,
    packed "T" .f16 .columnMajor ⟨2, 5, 3⟩ = .ok t ∧ t.layout.span? = some 30 ∧
      ∃ c ∈ (⟨2, 5, 3⟩ : Extent), t.layout.offset c = 17 := by
  have hb : 1 ≤ (⟨2, 5, 3⟩ : Extent).batch := by decide
  obtain ⟨t, ht⟩ : ∃ t, packed "T" .f16 .columnMajor ⟨2, 5, 3⟩ = .ok t :=
    exists_packed "T" .columnMajor hb (by decide)
  obtain ⟨-, hspan, -, hspan?, -, -, hbij, -⟩ := (packed_bijection "T" .f16 .columnMajor hb).2 t ht
  refine ⟨hb, t, ht, hspan?, hbij.surjOn ?_⟩
  rw [hspan]
  decide

end Tensor

end FusedGemm
