import FusedGemm.Config.Settings
import FusedGemm.Proofs.Tensor.Bounds

/-!
# Classifying strides

A declared stride is row-major if its columns are adjacent, and otherwise column-major if its rows
are; there is no order for it if and only if neither is the case
(`MatrixOrder.ofStride?_eq_none_iff`).

The stride of a packed matrix always has an order, though not always the one that it was packed in:
where a column-major matrix has a single row, both of its modes have stride one.  The order that is
found packs the matrix with the same offsets all the same (`MatrixOrder.classify_packed`).
-/

namespace FusedGemm

namespace MatrixOrder

variable {order : MatrixOrder} {e : Extent} {layout : Layout} {s : Stride}

/-! ### The order of a stride -/

theorem ofStride?_eq_none_iff : ofStride? s = none ↔ s.row ≠ 1 ∧ s.col ≠ 1 := by
  unfold ofStride?
  split_ifs with hcol hrow
  · simp [hcol]
  · simp [hrow]
  · simp [hcol, hrow]

theorem classify_of_ofStride? (operand : String) (h : ofStride? s = some order) :
    classify operand s = .ok order := by
  unfold classify
  rw [h]

/-! ### Packed strides -/

/-- The stride of a packed matrix. -/
def packedStride (order : MatrixOrder) (e : Extent) : Stride :=
  match order with
  | .rowMajor => ⟨e.cols, 1, e.rows * e.cols⟩
  | .columnMajor => ⟨1, e.rows, e.rows * e.cols⟩

theorem packed?_eq_some_iff : order.packed? e = some layout ↔
    (e.rows * e.cols < AddressSpace.limit ∧ e.count < AddressSpace.limit) ∧
      layout = ⟨e, order.packedStride e⟩ := by
  simp only [packed?, Option.bind_eq_bind, Option.bind_eq_some_iff, AddressSpace.mul?_eq_some_iff]
  constructor
  · rintro ⟨_, ⟨hmatrix, rfl⟩, _, ⟨hcount, -⟩, heq⟩
    refine ⟨⟨hmatrix, hcount⟩, ?_⟩
    cases order <;> exact (Option.some.inj heq).symm
  · rintro ⟨⟨hmatrix, hcount⟩, rfl⟩
    refine ⟨_, ⟨hmatrix, rfl⟩, _, ⟨hcount, rfl⟩, ?_⟩
    cases order <;> rfl

/-- **The order that a packed stride is found to have.** -/
theorem ofStride?_packedStride (order : MatrixOrder) (e : Extent) :
    ofStride? (order.packedStride e) = some (if e.rows = 1 then .rowMajor else order) := by
  cases order with
  | rowMajor => exact (if_pos rfl).trans (congrArg some (ite_self _).symm)
  | columnMajor =>
    show (if e.rows = 1 then some rowMajor else some columnMajor) = _
    split_ifs <;> rfl

/-- In a single row the two orders are the same. -/
theorem rank_eq_of_rows_eq_one (hrows : e.rows = 1) {c : Coord} (hc : c ∈ e)
    (order order' : MatrixOrder) : order.rank e c = order'.rank e c := by
  have hrow : c.row = 0 := by
    have := hc.1
    omega
  have hsame : MatrixOrder.columnMajor.rank e c = MatrixOrder.rowMajor.rank e c := by
    show (c.batch * e.cols + c.col) * e.rows + c.row = (c.batch * e.rows + c.row) * e.cols + c.col
    rw [hrows, hrow, Nat.mul_one, Nat.mul_one, Nat.add_zero, Nat.add_zero]
  cases order <;> cases order' <;> first | rfl | exact hsame | exact hsame.symm

theorem offset?_of_packed? (h : order.packed? e = some layout) {c : Coord} (hc : c ∈ e) :
    layout.offset? c = some (layout.offset c) := by
  have hcount := (packed?_eq_some_iff.mp h).1.2
  rw [← span_of_packed? h] at hcount
  rw [← extent_of_packed? h] at hc
  exact Layout.offset?_of_span?_eq_some (Layout.span?_of_lt hcount) hc

/-- **A packed stride is classified, and the matrix is the same in the order found**: packed in that
order it has the same offsets, which are computed without leaving the address space.  Only the
column-major order of a single row is not found again. -/
theorem classify_packed (operand : String) (h : order.packed? e = some layout) :
    ∃ found recovered, classify operand layout.stride = .ok found ∧
      found.packed? e = some recovered ∧
      (∀ c ∈ e, recovered.offset c = layout.offset c ∧
        layout.offset? c = some (layout.offset c) ∧
        recovered.offset? c = some (layout.offset c)) ∧
      (found ≠ order ↔ order = .columnMajor ∧ e.rows = 1) := by
  obtain ⟨haddressable, hlayout⟩ := packed?_eq_some_iff.mp h
  have hfound := ofStride?_packedStride order e
  obtain ⟨found, hf⟩ : ∃ found, found = if e.rows = 1 then MatrixOrder.rowMajor else order :=
    ⟨_, rfl⟩
  rw [← hf] at hfound
  have hrecovered : found.packed? e = some ⟨e, found.packedStride e⟩ :=
    packed?_eq_some_iff.mpr ⟨haddressable, rfl⟩
  refine ⟨found, _, ?_, hrecovered, fun c hc => ?_, ?_⟩
  · rw [hlayout]
    exact classify_of_ofStride? operand hfound
  · have hsame : found.rank e c = order.rank e c := by
      by_cases hrows : e.rows = 1
      · exact rank_eq_of_rows_eq_one hrows hc found order
      · rw [hf, if_neg hrows]
    rw [← offset_of_packed? h, ← offset_of_packed? hrecovered] at hsame
    exact ⟨hsame, offset?_of_packed? h hc, hsame ▸ offset?_of_packed? hrecovered hc⟩
  · rw [hf]
    by_cases hrows : e.rows = 1
    · rw [if_pos hrows]
      cases order <;> simp [hrows]
    · rw [if_neg hrows]
      simp [hrows]

/-- Two batches of a single row of four, packed in column-major order, count as row-major, where the
row has another stride. -/
theorem classify_packed_singleRow :
    MatrixOrder.columnMajor.packed? ⟨1, 4, 2⟩ = some ⟨⟨1, 4, 2⟩, ⟨1, 1, 4⟩⟩ ∧
      ∃ recovered, MatrixOrder.rowMajor.packed? ⟨1, 4, 2⟩ = some recovered ∧
        recovered.stride.row = 4 ∧ recovered.offset ⟨0, 3, 1⟩ = 7 := by
  have hpacked : MatrixOrder.columnMajor.packed? ⟨1, 4, 2⟩ =
      some ⟨⟨1, 4, 2⟩, ⟨1, 1, 4⟩⟩ := by decide
  obtain ⟨found, recovered, -, hrecovered, hoffset, hfound⟩ := classify_packed "A" hpacked
  obtain rfl : found = .rowMajor := by
    cases found with
    | rowMajor => rfl
    | columnMajor => exact absurd rfl (hfound.mpr ⟨rfl, rfl⟩)
  refine ⟨hpacked, recovered, hrecovered, ?_, (hoffset ⟨0, 3, 1⟩ (by decide)).1⟩
  rw [(packed?_eq_some_iff.mp hrecovered).2]
  rfl

end MatrixOrder

end FusedGemm
