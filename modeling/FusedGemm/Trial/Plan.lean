import FusedGemm.Config.Basic
import FusedGemm.Trial.Failure
import FusedGemm.Trial.Operands

/-!
# The plan of a trial

`Config.plan` says which tensors a configuration needs for a problem, what they hold before the
kernel runs, and which of them are in device memory.  An entry of a plan is evaluated only when it
is reached, so a trial that fails early builds nothing after that.

`A`, `B` and `C` start with a one, so that none of them is entirely zero.  The outputs start from
zeros, the running maxima from the largest number, which a kernel has to reset.  What is drawn has a
seed at a fixed distance from the base seed, which some operands share.
-/

namespace FusedGemm

/-- The contents of a tensor, and whether it is in device memory. -/
structure Placement where
  tensor : Tensor
  onDevice : Bool := true

namespace Tensor

/-- The tensor with a one as its first element, if it has one. -/
def withLeadingOne (t : Tensor) : Tensor :=
  if 0 < t.count then t.write .origin (.ofReal 1) else t

/-- A packed tensor of zeros, or the failure that it is too large. -/
def packed (name : String) (type : ElementType) (order : MatrixOrder) (extent : Extent) :
    Except Failure Tensor :=
  match packed? name type order extent with
  | some t => .ok t
  | none => .error (.oversized name extent)

/-- The numbers `x`, `x + 1`, … along the rows of a column. -/
def ramp (t : Tensor) (x : Float) : Tensor :=
  t.writeAll ((List.range t.extent.rows).map fun row => ⟨row, 0, 0⟩)
    fun c => .ofReal (x + Float.ofNat c.row)

end Tensor

namespace Config

variable (config : Config) (p : Problem)

/-! ## Contents -/

/-- The left operand. -/
def left : Except Failure Tensor := do
  let t ← Tensor.packed "A" config.typeA config.orderA p.leftExtent
  return (t.fillFrom config.fillA (config.seedAt 2022)).withLeadingOne

/-- The right operand. -/
def right : Except Failure Tensor := do
  let t ← Tensor.packed "B" config.typeB config.orderB p.rightExtent
  return (t.fillFrom config.fillB (config.seedAt 2021)).withLeadingOne

/-- The summand `C`. -/
def addend : Except Failure Tensor := do
  let t ← Tensor.packed "C" config.typeC config.orderC p.outputExtent
  return (t.fillFrom config.fillC (config.seedAt 2020)).withLeadingOne

/-- The product `D` before it is computed. -/
def product : Except Failure Tensor := Tensor.packed "D" config.typeD config.orderD p.outputExtent

/-- The auxiliary tensor before it is computed. -/
def auxOutput : Except Failure Tensor :=
  Tensor.packed "Aux" config.typeAux config.orderAux p.outputExtent

/-- The auxiliary tensor as an input. -/
def auxInput : Except Failure Tensor := do
  let t ← config.auxOutput p
  return t.fillFrom config.fillC (config.seedAt 2023)

/-- How many numbers alpha and beta are each, if their bytes are addressable. -/
def scalarCount : Except Failure Nat :=
  match (config.broadcast.length? p).filter fun n =>
      (AddressSpace.mul? n config.typeScalar.size).isSome with
  | some n => .ok n
  | none => .error (.oversized "alpha" p.outputExtent)

/-- Alpha: drawn where it differs from row to row, and else the given number throughout. -/
def alphaTensor (x : Float) : Except Failure Tensor := do
  let t := Tensor.zeros "alpha" config.typeScalar (.vector (← config.scalarCount p))
  if config.capabilities.rowScale && config.broadcast.onDevice then
    return t.fillFrom config.fillScale (config.seedAt 2023)
  else return t.fill x

/-- Beta: drawn where it differs from row to row, unless the given number is zero.  In device memory
it grows by one from batch to batch. -/
def betaTensor (x : Float) : Except Failure Tensor := do
  let t := Tensor.zeros "beta" config.typeScalar (.vector (← config.scalarCount p))
  if config.capabilities.rowScale && config.broadcast.onDevice then
    if x == 0.0 then return t
    else return t.fillFrom config.fillScale (config.seedAt 2024)
  else if config.broadcast.onDevice then return t.ramp x
  else return t.fill x

/-- A scale factor. -/
def scaleFactor (name : String) (offset : UInt64) : Tensor :=
  (Tensor.zeros name config.typeScalar .scalar).fillFrom config.fillScale (config.seedAt offset)

/-- The bias. -/
def biasTensor : Tensor :=
  (Tensor.zeros "bias" config.typeBias (.vector p.m)).fillFrom config.fillBias
    (config.seedAt 2023)

/-- The gradient of the bias before it is computed. -/
def gradientTensor : Tensor := .zeros "dBias" config.typeBias (.vector p.m)

/-- Asks for the storage of a column of biases.  Unlike that of a packed tensor its size is not
checked first. -/
def biasStorage (name : String) : Except Failure Unit :=
  match AddressSpace.mul? p.m config.typeBias.size with
  | some _ => .ok ()
  | none => .error (.unaddressable name)

/-- The bias as an input. -/
def biasInput : Except Failure Tensor := do
  config.biasStorage p "bias"
  return config.biasTensor p

/-- The gradient of the bias as an output. -/
def biasOutput : Except Failure Tensor := do
  config.biasStorage p "dBias"
  return config.gradientTensor p

/-- A running maximum that has not been reset. -/
def absMaxTensor (name : String) : Tensor :=
  (Tensor.zeros name config.typeAbsMax .scalar).fill config.typeAbsMax.greatest

/-! ## The plan -/

/-- An entry of a plan. -/
abbrev Entry := Unit → Except Failure Placement

/-- The entries of the scale factors. -/
def scalePlan : Scales Entry :=
  let entry (name : String) (offset : UInt64) : Entry := fun _ =>
    .ok ⟨config.scaleFactor name offset, config.scalarLocation == .device⟩
  { a := entry "scale_a" 2023
    b := entry "scale_b" 2024
    c := entry "scale_c" 2025
    d := entry "scale_d" 2026
    aux := if config.capabilities.auxOut then some (entry "scale_aux" 2027) else none }

/-- The entries of the outputs.  A bias that is read leaves no room for its gradient, and an
auxiliary tensor that is read none for one that is written. -/
def outputPlan : Outputs Entry where
  d _ := Placement.mk <$> config.product p <*> pure true
  biasGradient :=
    if config.capabilities.biasGradient && !config.capabilities.rowBias then
      some fun _ => Placement.mk <$> config.biasOutput p <*> pure true
    else none
  aux :=
    if config.capabilities.auxOut && !config.capabilities.auxIn then
      some fun _ => Placement.mk <$> config.auxOutput p <*> pure true
    else none
  absMaxD :=
    if config.capabilities.absMaxD then
      some fun _ => .ok ⟨config.absMaxTensor "abs_max_D", true⟩
    else none
  absMaxAux :=
    if config.capabilities.absMaxAux then
      some fun _ => .ok ⟨config.absMaxTensor "abs_max_Aux", true⟩
    else none

/-- The tensors that a configuration needs for a problem.  `A` and `B` are laid out before either is
placed, and so are `C` and `D`. -/
def plan (alpha beta : Float) : Operands Entry where
  a _ := do
    let t ← config.left p
    let _ ← config.right p
    return ⟨t, true⟩
  b _ := Placement.mk <$> config.right p <*> pure true
  c _ := do
    let t ← config.addend p
    let _ ← config.product p
    return ⟨t, true⟩
  alpha _ := Placement.mk <$> config.alphaTensor p alpha <*> pure config.broadcast.onDevice
  beta _ := Placement.mk <$> config.betaTensor p beta <*> pure config.broadcast.onDevice
  scale := if config.capabilities.scaleFactors then some config.scalePlan else none
  bias :=
    if config.capabilities.rowBias then
      some fun _ => Placement.mk <$> config.biasInput p <*> pure true
    else none
  auxIn :=
    if config.capabilities.auxIn then
      some fun _ => Placement.mk <$> config.auxInput p <*> pure true
    else none
  outputs := config.outputPlan p

end Config

end FusedGemm
