import FusedGemm.Fusion.Activation
import FusedGemm.Gemm.Outputs
import FusedGemm.Tensor.Basic

/-!
# The meaning of a fused product

For each coordinate `(m, n, l)` of the output,

    acc = Σ_k A(m, k, l) * B(k, n, l)                   rounded to the accumulator at each step
    pre = alpha * scale_a * scale_b * acc + beta * scale_c * C(m, n, l), plus bias(m)

and a forward pass saves `pre * scale_aux` as `Aux` and has the result `activation pre`, while a
backward pass has the result `pre * activation'(Aux(m, n, l))` and adds it to the gradient of row
`m`.  The product is `D = result * scale_d`.

`FusedProduct.cell` is this value at one coordinate.  `FusedProduct.apply` evaluates every cell and
writes or reduces them into the outputs; each output is a function of the cells and of its own
previous contents.  `applyCovered?` refuses operands whose storage does not cover the coordinates
read.
-/

namespace FusedGemm

/-! ## Operands -/

/-- The factors of the operands and outputs. -/
structure ScaleFactors where
  a : Float := 1
  b : Float := 1
  c : Float := 1
  d : Float := 1
  aux : Float := 1

/-- Alpha or beta: one number, or a tensor read at each output coordinate. -/
inductive ScalarSource where
  | value (x : Float)
  | broadcast (values : Tensor)

namespace ScalarSource

/-- The number at an output coordinate. -/
def read (s : ScalarSource) (c : Coord) : ComplexFloat :=
  match s with
  | value x => .ofReal x
  | broadcast values => values.read c

/-- The numbers over the given extent are in the storage. -/
def Covers (s : ScalarSource) (extent : Extent) : Prop :=
  match s with
  | value _ => True
  | broadcast values => values.Covers extent

instance (s : ScalarSource) (extent : Extent) : Decidable (s.Covers extent) :=
  match s with
  | value _ => inferInstanceAs (Decidable True)
  | broadcast values => inferInstanceAs (Decidable (values.Covers extent))

end ScalarSource

/-- What a fused product reads. -/
structure FusedProduct where
  /-- The left operand, of extent `(M, K, L)`. -/
  a : Tensor
  /-- The right operand, of extent `(K, N, L)`. -/
  b : Tensor
  /-- The type to which the sum over `K` is rounded at each step. -/
  accumulator : ElementType
  c : Tensor
  alpha : ScalarSource
  beta : ScalarSource
  scale : Option ScaleFactors := none
  /-- A number for each row, added before the activation. -/
  bias : Option Tensor := none
  /-- The saved values of the forward pass; with them the pass is a backward one. -/
  auxIn : Option Tensor := none
  activation : Activation := .identity

/-! ## One coordinate -/

/-- The value of a fused product at one coordinate. -/
structure Cell where
  coord : Coord
  /-- The value before the activation or its derivative. -/
  pre : ComplexFloat
  /-- The value after it, not yet scaled. -/
  result : ComplexFloat

namespace FusedProduct

variable (p : FusedProduct)

/-- The factors, ones where there are none. -/
def factors : ScaleFactors := p.scale.getD {}

/-- One term of the sum over `K`, added and rounded. -/
def accumulate (c : Coord) (acc : ComplexFloat) (k : Nat) : ComplexFloat :=
  p.accumulator.quantize (acc + p.a.read ⟨c.row, k, c.batch⟩ * p.b.read ⟨k, c.col, c.batch⟩)

/-- The sum over `K`. -/
def accumulated (c : Coord) : ComplexFloat :=
  (List.range p.a.extent.cols).foldl (p.accumulate c) .zero

/-- The linear combination of the sum and `C`. -/
def combination (c : Coord) : ComplexFloat :=
  ((p.alpha.read c).scale p.factors.a).scale p.factors.b * p.accumulated c +
    (p.beta.read c).scale p.factors.c * p.c.read c

/-- The linear combination with the bias. -/
def biased (c : Coord) : ComplexFloat :=
  match p.bias with
  | some bias => p.combination c + bias.read ⟨c.row, 0, 0⟩
  | none => p.combination c

/-- The result for the value `pre` before the activation or its derivative. -/
def finish (c : Coord) (pre : ComplexFloat) : ComplexFloat :=
  match p.auxIn with
  | some aux => pre.scale (p.activation.derivative (aux.read c).re)
  | none => p.activation.apply pre

/-- The value at one coordinate. -/
def cell (c : Coord) : Cell :=
  let pre := p.biased c
  ⟨c, pre, p.finish c pre⟩

/-! ## Outputs -/

/-- The values at all coordinates in batch, row, column order. -/
def cells (extent : Extent) : List Cell := extent.coords.map p.cell

/-- The number stored in `D`. -/
def product (cell : Cell) : ComplexFloat :=
  match p.scale with
  | some factors => cell.result.scale factors.d
  | none => cell.result

/-- The number saved in `Aux`. -/
def saved (cell : Cell) : ComplexFloat := cell.pre.scale p.factors.aux

/-- A tensor with a number stored for each of the cells. -/
def store (t : Tensor) (value : Cell → ComplexFloat) (cells : List Cell) : Tensor :=
  cells.foldl (fun t cell => t.write cell.coord (value cell)) t

/-- The largest absolute value, at least zero; NaN counts for nothing. -/
def largest (value : Cell → ComplexFloat) (cells : List Cell) : Float :=
  cells.foldl (fun x cell => maxNumber x (value cell).norm) 0

/-- The sum of the results in one row, the batches one after the other. -/
def rowSum (row : Nat) (cells : List Cell) : ComplexFloat :=
  (cells.filter fun cell => cell.coord.row == row).foldl (fun sum cell => sum + cell.result) .zero

/-- The gradient of one row; zero in a forward pass. -/
def gradient (row : Nat) (cells : List Cell) : ComplexFloat :=
  if p.auxIn.isSome then rowSum row cells else .zero

/-- A running maximum with one more value. -/
def raise (t : Tensor) (x : Float) : Tensor :=
  if (t.read .origin).re < x then t.write .origin (.ofReal x) else t

/-- A gradient with one more row sum added. -/
def addGradient (cells : List Cell) (t : Tensor) (row : Nat) : Tensor :=
  t.write ⟨row, 0, 0⟩ (t.read ⟨row, 0, 0⟩ + p.gradient row cells)

/-- The largest absolute value of what is saved in `Aux`; zero where nothing is. -/
def largestSaved (savesAux : Bool) (cells : List Cell) : Float :=
  if p.auxIn.isNone && savesAux then largest Cell.pre cells else 0

/-- The outputs of a fused product, from their previous contents.  `D` and `Aux` are overwritten,
the gradient is added to, and the running maxima are raised. -/
def apply (o : Outputs Tensor) : Outputs Tensor :=
  let cells := p.cells o.d.extent
  { d := store o.d p.product cells
    absMaxD := o.absMaxD.map fun t => raise t (largest Cell.result cells)
    biasGradient := o.biasGradient.map fun t =>
      (List.range o.d.extent.rows).foldl (p.addGradient cells) t
    aux := o.aux.map fun t => if p.auxIn.isSome then t else store t p.saved cells
    absMaxAux := o.absMaxAux.map fun t => raise t (p.largestSaved o.aux.isSome cells) }

/-! ## Storage -/

/-- Every number that is read or written for a cell of the given extent is in its storage. -/
def CoversCells (o : Outputs Tensor) (e : Extent) : Prop :=
  p.a.Covers ⟨e.rows, p.a.extent.cols, e.batch⟩ ∧
  p.b.Covers ⟨p.a.extent.cols, e.cols, e.batch⟩ ∧
  p.c.Covers e ∧ p.alpha.Covers e ∧ p.beta.Covers e ∧ o.d.Covers e ∧
  (∀ t ∈ p.bias, t.Covers ⟨e.rows, 1, 1⟩) ∧ (∀ t ∈ p.auxIn, t.Covers e) ∧
  (p.auxIn = none → ∀ t ∈ o.aux, t.Covers e)

/-- Every number that is read or written is in its storage.  Without cells only the reductions
touch their outputs. -/
def Covered (o : Outputs Tensor) : Prop :=
  (o.d.extent.isEmpty = true ∨ p.CoversCells o o.d.extent) ∧
  (∀ t ∈ o.biasGradient, t.Covers ⟨o.d.extent.rows, 1, 1⟩) ∧
  (∀ t ∈ o.absMaxD, t.Covers ⟨1, 1, 1⟩) ∧ (∀ t ∈ o.absMaxAux, t.Covers ⟨1, 1, 1⟩)

instance (o : Outputs Tensor) : Decidable (p.Covered o) := by
  unfold Covered CoversCells
  infer_instance

/-- The outputs of a fused product, if everything it touches is in its storage. -/
def applyCovered? (o : Outputs Tensor) : Option (Outputs Tensor) :=
  if p.Covered o then some (p.apply o) else none

end FusedProduct

end FusedGemm
