import FusedGemm.Gemm.Launch

/-!
# The operands of a trial

`Operands α` holds one `α` for each tensor that a kernel is given: inputs, scalars and outputs.
`Operands.mapM` visits them in the order in which they are allocated, which is also the order of
`Operands.toList`.
-/

namespace FusedGemm

/-- Something for each tensor that a kernel is given. -/
structure Operands (α : Type) where
  a : α
  b : α
  c : α
  alpha : α
  beta : α
  scale : Option (Scales α)
  bias : Option α
  auxIn : Option α
  outputs : Outputs α

namespace Operands

variable {α β : Type}

/-- All of them in order. -/
def toList (o : Operands α) : List α :=
  [o.a, o.b, o.c, o.outputs.d, o.alpha, o.beta] ++ (o.scale.map Scales.toList).getD [] ++
    o.bias.toList ++ o.outputs.biasGradient.toList ++ o.auxIn.toList ++ o.outputs.aux.toList ++
    o.outputs.absMaxD.toList ++ o.outputs.absMaxAux.toList

/-- Applies a function that can fail to each in order. -/
def mapM {m : Type → Type} [Monad m] (f : α → m β) (o : Operands α) : m (Operands β) := do
  let a ← f o.a
  let b ← f o.b
  let c ← f o.c
  let d ← f o.outputs.d
  let alpha ← f o.alpha
  let beta ← f o.beta
  let scale ← o.scale.mapM (Scales.mapM f)
  let bias ← o.bias.mapM f
  let biasGradient ← o.outputs.biasGradient.mapM f
  let auxIn ← o.auxIn.mapM f
  let aux ← o.outputs.aux.mapM f
  let absMaxD ← o.outputs.absMaxD.mapM f
  let absMaxAux ← o.outputs.absMaxAux.mapM f
  return {
    a := a, b := b, c := c, alpha := alpha, beta := beta, scale := scale, bias := bias
    auxIn := auxIn
    outputs := {
      d := d, absMaxD := absMaxD, biasGradient := biasGradient, aux := aux
      absMaxAux := absMaxAux } }

end Operands

end FusedGemm
