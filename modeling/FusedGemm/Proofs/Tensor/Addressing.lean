import FusedGemm.Tensor.Layout
import Mathlib

/-!
# Which storage elements a layout reaches

Offsets grow with each mode of a coordinate, so the last coordinate of an extent has the largest one
and every offset is below the span (`offset_lt_span`).

A layout *separates* coordinates if no two of them share an offset, and is *dense* if every offset
below its span is reached.  Packed matrices and columns of consecutive elements are both
(`separates_of_packed?`, `dense_of_packed?`, `separates_vector`, `dense_vector`): their offsets are
the ranks of the coordinates in row-major or column-major order.
-/

namespace FusedGemm

namespace Extent

theorem pos_of_mem {e : Extent} {c : Coord} (h : c ∈ e) : 0 < e.rows ∧ 0 < e.cols ∧ 0 < e.batch := by
  obtain ⟨hr, hc, hb⟩ := h
  exact ⟨by omega, by omega, by omega⟩

theorem isEmpty_eq_false_of_mem {e : Extent} {c : Coord} (h : c ∈ e) : e.isEmpty = false := by
  obtain ⟨hr, hc, hb⟩ := pos_of_mem h
  simp only [isEmpty, Bool.or_eq_false_iff, beq_eq_false_iff_ne]
  exact ⟨⟨by omega, by omega⟩, by omega⟩

theorem count_pos_of_mem {e : Extent} {c : Coord} (h : c ∈ e) : 0 < e.count :=
  lt_of_le_of_lt (Nat.zero_le _) (rank_lt h)

theorem origin_mem {e : Extent} (h : 0 < e.count) : Coord.origin ∈ e := by
  have hne : ¬ e.isEmpty = true := fun he => by rw [isEmpty_iff] at he; omega
  simp only [isEmpty, Bool.or_eq_true, beq_iff_eq, not_or] at hne
  exact ⟨Nat.pos_of_ne_zero hne.1.1, Nat.pos_of_ne_zero hne.1.2, Nat.pos_of_ne_zero hne.2⟩

end Extent

namespace Layout

/-- No two coordinates of the extent share an offset. -/
def Separates (layout : Layout) : Prop :=
  ∀ c ∈ layout.extent, ∀ c' ∈ layout.extent, layout.offset c = layout.offset c' → c = c'

/-- Every offset below the span is that of a coordinate. -/
def Dense (layout : Layout) : Prop :=
  ∀ i < layout.span, ∃ c ∈ layout.extent, layout.offset c = i

/-! ### Bounds -/

theorem offset_lt_span {layout : Layout} {c : Coord} (h : c ∈ layout.extent) :
    layout.offset c < layout.span := by
  have hne := Extent.isEmpty_eq_false_of_mem h
  obtain ⟨hr, hc, hb⟩ := h
  unfold span
  rw [if_neg (by simp [hne])]
  unfold offset
  have h1 := Nat.mul_le_mul_right layout.stride.row (show c.row ≤ layout.extent.rows - 1 by omega)
  have h2 := Nat.mul_le_mul_right layout.stride.col (show c.col ≤ layout.extent.cols - 1 by omega)
  have h3 := Nat.mul_le_mul_right layout.stride.batch
    (show c.batch ≤ layout.extent.batch - 1 by omega)
  dsimp only
  omega

theorem span_eq_zero_iff {layout : Layout} : layout.span = 0 ↔ layout.extent.count = 0 := by
  rw [← Extent.isEmpty_iff]
  unfold span
  split_ifs with h <;> simp [h]

/-! ### Columns -/

theorem offset_vector (n : Nat) (c : Coord) : (vector n).offset c = c.row := by
  simp [vector, offset]

@[simp] theorem span_vector (n : Nat) : (vector n).span = n := by
  rcases Nat.eq_zero_or_pos n with rfl | hn
  · rfl
  · unfold span
    rw [if_neg (by simp [vector, Extent.isEmpty]; omega), offset_vector]
    simp only [vector]
    omega

theorem separates_vector (n : Nat) : (vector n).Separates := by
  rintro ⟨r, k, b⟩ ⟨-, hk, hb⟩ ⟨r', k', b'⟩ ⟨-, hk', hb'⟩ h
  rw [offset_vector, offset_vector] at h
  simp only [vector] at hk hb hk' hb' h
  simp only [Coord.mk.injEq]
  omega

theorem dense_vector (n : Nat) : (vector n).Dense := by
  intro i hi
  rw [span_vector] at hi
  exact ⟨⟨i, 0, 0⟩, ⟨hi, Nat.one_pos, Nat.one_pos⟩, offset_vector n _⟩

end Layout

/-! ### Packed matrices -/

namespace Extent

/-- The extent with rows and columns exchanged. -/
def transpose (e : Extent) : Extent := ⟨e.cols, e.rows, e.batch⟩

theorem count_transpose (e : Extent) : e.transpose.count = e.count := by
  simp [transpose, count, Nat.mul_comm e.cols]

theorem rank_inj {e : Extent} {c c' : Coord} (h : c ∈ e) (h' : c' ∈ e) (hr : e.rank c = e.rank c') :
    c = c' := by
  rw [← coord_rank h, ← coord_rank h', hr]

/-- The rank of the `n`-th coordinate is `n`. -/
theorem rank_coord (e : Extent) (n : Nat) : e.rank (e.coord n) = n := by
  have h1 := Nat.div_add_mod n e.cols
  have h2 := Nat.div_add_mod (n / e.cols) e.rows
  unfold rank coord
  dsimp only
  rw [Nat.mul_comm (n / e.cols / e.rows), h2, Nat.mul_comm (n / e.cols), h1]

end Extent

namespace Coord

/-- The coordinate with row and column exchanged. -/
def transpose (c : Coord) : Coord := ⟨c.col, c.row, c.batch⟩

theorem transpose_transpose (c : Coord) : c.transpose.transpose = c := rfl

theorem transpose_inj {c c' : Coord} (h : c.transpose = c'.transpose) : c = c' := by
  rw [← transpose_transpose c, h, transpose_transpose]

theorem transpose_mem {e : Extent} {c : Coord} : c.transpose ∈ e.transpose ↔ c ∈ e := by
  constructor
  · rintro ⟨hc, hr, hb⟩
    exact ⟨hr, hc, hb⟩
  · rintro ⟨hr, hc, hb⟩
    exact ⟨hc, hr, hb⟩

end Coord

namespace MatrixOrder

/-- The position of a coordinate in the storage of a packed matrix. -/
def rank (order : MatrixOrder) (e : Extent) (c : Coord) : Nat :=
  match order with
  | .rowMajor => e.rank c
  | .columnMajor => e.transpose.rank c.transpose

variable {order : MatrixOrder} {e : Extent} {layout : Layout}

theorem rank_lt {c : Coord} (h : c ∈ e) : order.rank e c < e.count := by
  cases order with
  | rowMajor => exact Extent.rank_lt h
  | columnMajor =>
    rw [← Extent.count_transpose]
    exact Extent.rank_lt (Coord.transpose_mem.mpr h)

theorem rank_inj {c c' : Coord} (h : c ∈ e) (h' : c' ∈ e)
    (hr : order.rank e c = order.rank e c') : c = c' := by
  cases order with
  | rowMajor => exact Extent.rank_inj h h' hr
  | columnMajor =>
    exact Coord.transpose_inj
      (Extent.rank_inj (Coord.transpose_mem.mpr h) (Coord.transpose_mem.mpr h') hr)

theorem exists_rank_eq (order : MatrixOrder) {n : Nat} (h : n < e.count) : ∃ c ∈ e, order.rank e c = n := by
  cases order with
  | rowMajor => exact ⟨e.coord n, Extent.coord_mem h, Extent.rank_coord e n⟩
  | columnMajor =>
    rw [← Extent.count_transpose] at h
    refine ⟨(e.transpose.coord n).transpose, ?_, ?_⟩
    · rw [← Coord.transpose_mem, Coord.transpose_transpose]
      exact Extent.coord_mem h
    · show e.transpose.rank _ = n
      rw [Coord.transpose_transpose, Extent.rank_coord]

theorem extent_of_packed? (h : order.packed? e = some layout) : layout.extent = e := by
  simp only [packed?, Option.bind_eq_bind, Option.bind_eq_some_iff, AddressSpace.mul?_eq_some_iff]
    at h
  obtain ⟨_, -, _, -, h⟩ := h
  cases order <;> cases h <;> rfl

theorem offset_of_packed? (h : order.packed? e = some layout) (c : Coord) :
    layout.offset c = order.rank e c := by
  simp only [packed?, Option.bind_eq_bind, Option.bind_eq_some_iff, AddressSpace.mul?_eq_some_iff]
    at h
  obtain ⟨_, ⟨-, rfl⟩, _, -, h⟩ := h
  cases order <;> cases h <;>
    simp only [Layout.offset, rank, Extent.rank, Extent.transpose, Coord.transpose] <;> ring

/-- The offsets of a packed matrix are those below the number of its elements. -/
theorem span_of_packed? (h : order.packed? e = some layout) : layout.span = e.count := by
  have he := extent_of_packed? h
  rcases Nat.eq_zero_or_pos e.count with h0 | hpos
  · rw [h0, Layout.span_eq_zero_iff, he, h0]
  · apply le_antisymm
    · unfold Layout.span
      rw [he, if_neg (by rw [Extent.isEmpty_iff]; omega), offset_of_packed? h]
      obtain ⟨hr, hc, hb⟩ := Extent.pos_of_mem (Extent.origin_mem hpos)
      exact rank_lt ⟨by dsimp only; omega, by dsimp only; omega, by dsimp only; omega⟩
    · obtain ⟨c, hc, hn⟩ := exists_rank_eq order (show e.count - 1 < e.count by omega)
      have hlt : layout.offset c < layout.span := Layout.offset_lt_span (by rw [he]; exact hc)
      rw [offset_of_packed? h, hn] at hlt
      omega

theorem separates_of_packed? (h : order.packed? e = some layout) : layout.Separates := by
  intro c hc c' hc' heq
  rw [extent_of_packed? h] at hc hc'
  rw [offset_of_packed? h, offset_of_packed? h] at heq
  exact rank_inj hc hc' heq

theorem dense_of_packed? (h : order.packed? e = some layout) : layout.Dense := by
  intro i hi
  rw [span_of_packed? h] at hi
  obtain ⟨c, hc, hn⟩ := exists_rank_eq order hi
  exact ⟨c, by rw [extent_of_packed? h]; exact hc, by rw [offset_of_packed? h, hn]⟩

end MatrixOrder

end FusedGemm
