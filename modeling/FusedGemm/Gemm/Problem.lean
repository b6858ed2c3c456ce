import FusedGemm.Tensor.Layout

/-!
# Problem shapes

A problem multiplies an `m × k` by a `k × n` matrix, `batch` times.  There is at least one batch.
-/

namespace FusedGemm

/-- The extents of a batched matrix product. -/
structure Problem where
  m : Nat
  n : Nat
  k : Nat
  batch : Nat
  batch_pos : 0 < batch := by omega
  deriving DecidableEq

namespace Problem

/-- The problem with the given extents, if there is at least one batch. -/
def ofExtents? (m n k batch : Nat) : Option Problem :=
  if h : 0 < batch then some ⟨m, n, k, batch, h⟩ else none

/-- A problem with a single batch. -/
def single (m n k : Nat) : Problem := ⟨m, n, k, 1, Nat.one_pos⟩

/-- The extent of the left operand. -/
def leftExtent (p : Problem) : Extent := ⟨p.m, p.k, p.batch⟩

/-- The extent of the right operand. -/
def rightExtent (p : Problem) : Extent := ⟨p.k, p.n, p.batch⟩

/-- The extent of the output. -/
def outputExtent (p : Problem) : Extent := ⟨p.m, p.n, p.batch⟩

/-- The extents between crosses. -/
def text (p : Problem) : String :=
  p.m.repr ++ "x" ++ p.n.repr ++ "x" ++ p.k.repr ++ "x" ++ p.batch.repr

end Problem

end FusedGemm
