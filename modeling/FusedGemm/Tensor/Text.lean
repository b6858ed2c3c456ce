import FusedGemm.Numeric.Decimal
import FusedGemm.Tensor.Basic

/-!
# Tensors as text

Each batch is written as one line per row with its elements between commas.  Where there is more
than one batch, a line with its number stands in front of each.
-/

namespace FusedGemm

namespace Tensor

/-- One element: a number, or a pair of parts where the type is complex. -/
def elementText (t : Tensor) (c : Coord) : String :=
  let z := t.read c
  if t.type.isComplex then "(" ++ plainText z.re ++ ", " ++ plainText z.im ++ ")"
  else plainText z.re

/-- The line of one row. -/
def rowText (t : Tensor) (row batch : Nat) : String :=
  let cells := (List.range t.extent.cols).map fun col => t.elementText ⟨row, col, batch⟩
  ", ".intercalate cells ++ "\n"

/-- The lines of one batch. -/
def batchText (t : Tensor) (batch : Nat) : String :=
  let header := if 1 < t.extent.batch then "[batch " ++ batch.repr ++ "]\n" else ""
  header ++ String.join ((List.range t.extent.rows).map fun row => t.rowText row batch)

/-- The text of a tensor. -/
def text (t : Tensor) : String := String.join ((List.range t.extent.batch).map t.batchText)

end Tensor

end FusedGemm
