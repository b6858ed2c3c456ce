import FusedGemm.Numeric.AddressSpace

/-!
# Coordinates and layouts

A tensor has rank three: rows, columns and batches.  `Extent.coord n` is the `n`-th coordinate in
batch, row, column order and `Extent.rank` its position; `Extent.coords` lists all of them.

A `Layout` sends a coordinate to the storage index `row * stride.row + col * stride.col +
batch * stride.batch`.  Strides are arbitrary: zero ones broadcast, so vectors and scalars seen over
a larger extent are layouts too.  `Layout.span` is the number of storage elements that a layout
reaches and `Layout.span?` the same number where it is addressable.
-/

namespace FusedGemm

/-! ## Coordinates -/

/-- The numbers of rows, columns and batches. -/
structure Extent where
  rows : Nat
  cols : Nat
  batch : Nat
  deriving DecidableEq

/-- The position of an element. -/
structure Coord where
  row : Nat
  col : Nat
  batch : Nat
  deriving DecidableEq

/-- How far apart in storage neighbouring rows, columns and batches are. -/
structure Stride where
  row : Nat
  col : Nat
  batch : Nat
  deriving DecidableEq

namespace Coord

/-- The first element. -/
def origin : Coord := ⟨0, 0, 0⟩

end Coord

namespace Stride

/-- The stride that maps every coordinate to one element. -/
def none : Stride := ⟨0, 0, 0⟩

end Stride

namespace Extent

/-- The number of elements. -/
def count (e : Extent) : Nat := e.rows * e.cols * e.batch

/-- There is no element. -/
def isEmpty (e : Extent) : Bool := e.rows == 0 || e.cols == 0 || e.batch == 0

/-- The coordinate is one of the extent's. -/
def Mem (e : Extent) (c : Coord) : Prop := c.row < e.rows ∧ c.col < e.cols ∧ c.batch < e.batch

instance : Membership Coord Extent := ⟨fun e c => e.Mem c⟩

theorem mem_def {e : Extent} {c : Coord} :
    c ∈ e ↔ c.row < e.rows ∧ c.col < e.cols ∧ c.batch < e.batch := Iff.rfl

instance (e : Extent) (c : Coord) : Decidable (c ∈ e) :=
  inferInstanceAs (Decidable (c.row < e.rows ∧ c.col < e.cols ∧ c.batch < e.batch))

/-- The position of a coordinate in batch, row, column order. -/
def rank (e : Extent) (c : Coord) : Nat := (c.batch * e.rows + c.row) * e.cols + c.col

/-- The `n`-th coordinate in batch, row, column order. -/
def coord (e : Extent) (n : Nat) : Coord :=
  ⟨n / e.cols % e.rows, n % e.cols, n / e.cols / e.rows⟩

/-- The first `n` coordinates, or all if there are fewer. -/
def firstCoords (e : Extent) (n : Nat) : List Coord := (List.range (min n e.count)).map e.coord

/-- All coordinates in batch, row, column order. -/
def coords (e : Extent) : List Coord := (List.range e.count).map e.coord

/-- The extent as messages show it. -/
def text (e : Extent) : String :=
  "[" ++ e.rows.repr ++ ", " ++ e.cols.repr ++ ", " ++ e.batch.repr ++ "]"

theorem isEmpty_iff {e : Extent} : e.isEmpty = true ↔ e.count = 0 := by
  simp only [isEmpty, count, Bool.or_eq_true, beq_iff_eq, Nat.mul_eq_zero]

theorem length_coords (e : Extent) : e.coords.length = e.count := by simp [coords]

/-- Ranks are below the count. -/
theorem rank_lt {e : Extent} {c : Coord} (h : c ∈ e) : e.rank c < e.count := by
  obtain ⟨hr, hc, hb⟩ := h
  have h1 : c.batch * e.rows + c.row < e.batch * e.rows := by
    have := Nat.mul_le_mul_right e.rows (show c.batch + 1 ≤ e.batch from hb)
    rw [Nat.add_mul, Nat.one_mul] at this
    omega
  have h2 := Nat.mul_le_mul_right e.cols
    (show c.batch * e.rows + c.row + 1 ≤ e.batch * e.rows from h1)
  rw [Nat.add_mul, Nat.one_mul] at h2
  have h3 : e.count = e.batch * e.rows * e.cols := by
    unfold count
    rw [Nat.mul_comm (e.rows * e.cols), Nat.mul_assoc]
  unfold rank
  omega

/-- The coordinate at the rank of `c` is `c`. -/
theorem coord_rank {e : Extent} {c : Coord} (h : c ∈ e) : e.coord (e.rank c) = c := by
  obtain ⟨hr, hc, _⟩ := h
  have hdiv : e.rank c / e.cols = c.batch * e.rows + c.row := by
    unfold rank
    rw [Nat.add_comm, Nat.add_mul_div_right _ _ (by omega), Nat.div_eq_of_lt hc, Nat.zero_add]
  have hmod : e.rank c % e.cols = c.col := by
    unfold rank
    rw [Nat.add_comm, Nat.add_mul_mod_self_right, Nat.mod_eq_of_lt hc]
  have hrow : (c.batch * e.rows + c.row) % e.rows = c.row := by
    rw [Nat.add_comm, Nat.add_mul_mod_self_right, Nat.mod_eq_of_lt hr]
  have hbatch : (c.batch * e.rows + c.row) / e.rows = c.batch := by
    rw [Nat.add_comm, Nat.add_mul_div_right _ _ (by omega), Nat.div_eq_of_lt hr, Nat.zero_add]
  unfold coord
  rw [hdiv, hmod, hrow, hbatch]

/-- Below the count, `coord` gives coordinates of the extent. -/
theorem coord_mem {e : Extent} {n : Nat} (h : n < e.count) : e.coord n ∈ e := by
  have hpos : 0 < e.rows ∧ 0 < e.cols := by
    unfold count at h
    refine ⟨Nat.pos_of_ne_zero ?_, Nat.pos_of_ne_zero ?_⟩ <;> intro h0 <;> simp [h0] at h
  refine ⟨Nat.mod_lt _ hpos.1, Nat.mod_lt _ hpos.2, ?_⟩
  show n / e.cols / e.rows < e.batch
  rw [Nat.div_div_eq_div_mul, Nat.div_lt_iff_lt_mul (Nat.mul_pos hpos.2 hpos.1)]
  unfold count at h
  rwa [Nat.mul_comm e.batch, Nat.mul_comm e.cols]

/-- The listed coordinates are those of the extent. -/
theorem mem_coords {e : Extent} {c : Coord} : c ∈ e.coords ↔ c ∈ e := by
  constructor
  · intro h
    obtain ⟨n, hn, rfl⟩ := List.mem_map.mp h
    exact coord_mem (List.mem_range.mp hn)
  · intro h
    exact List.mem_map.mpr ⟨e.rank c, List.mem_range.mpr (rank_lt h), coord_rank h⟩

end Extent

/-! ## Strides and layouts -/

/-- An extent together with the strides of its storage. -/
structure Layout where
  extent : Extent
  stride : Stride
  deriving DecidableEq

namespace Layout

/-- A column of `n` consecutive elements. -/
def vector (n : Nat) : Layout := ⟨⟨n, 1, 1⟩, ⟨1, 0, 0⟩⟩

/-- A single element. -/
def scalar : Layout := vector 1

/-- The storage index of a coordinate. -/
def offset (layout : Layout) (c : Coord) : Nat :=
  c.row * layout.stride.row + c.col * layout.stride.col + c.batch * layout.stride.batch

/-- The number of storage elements up to the last one that a coordinate reaches. -/
def span (layout : Layout) : Nat :=
  if layout.extent.isEmpty then 0
  else layout.offset ⟨layout.extent.rows - 1, layout.extent.cols - 1, layout.extent.batch - 1⟩ + 1

/-- The span, if it is addressable.  Each step of its computation is checked on its own. -/
def span? (layout : Layout) : Option Nat :=
  if layout.extent.isEmpty then some 0
  else do
    let rows ← AddressSpace.mul? (layout.extent.rows - 1) layout.stride.row
    let cols ← AddressSpace.mul? (layout.extent.cols - 1) layout.stride.col
    let upper ← AddressSpace.add? rows cols
    let batch ← AddressSpace.mul? (layout.extent.batch - 1) layout.stride.batch
    let last ← AddressSpace.add? upper batch
    AddressSpace.add? last 1

/-- The same strides over another extent. -/
def withExtent (layout : Layout) (extent : Extent) : Layout := ⟨extent, layout.stride⟩

end Layout

/-! ## Packed matrices -/

/-- Which neighbours of a packed matrix are adjacent in storage. -/
inductive MatrixOrder where
  | rowMajor
  | columnMajor
  deriving DecidableEq

namespace MatrixOrder

/-- Both orders. -/
def all : List MatrixOrder := [.rowMajor, .columnMajor]

/-- The name of an order in configurations. -/
def name : MatrixOrder → String
  | .rowMajor => "RowMajor"
  | .columnMajor => "ColumnMajor"

/-- The order that a declared stride has: one of its two matrix modes must be one.  Where both are,
the matrix counts as row-major. -/
def ofStride? (s : Stride) : Option MatrixOrder :=
  if s.col = 1 then some .rowMajor
  else if s.row = 1 then some .columnMajor
  else none

/-- The layout of matrices stored without gaps, one batch after the other, if their number of
elements is addressable.  The size of one matrix has to be addressable even if there is no batch. -/
def packed? (order : MatrixOrder) (e : Extent) : Option Layout := do
  let matrix ← AddressSpace.mul? e.rows e.cols
  let _ ← AddressSpace.mul? matrix e.batch
  match order with
  | .rowMajor => some ⟨e, ⟨e.cols, 1, matrix⟩⟩
  | .columnMajor => some ⟨e, ⟨1, e.rows, matrix⟩⟩

end MatrixOrder

end FusedGemm
