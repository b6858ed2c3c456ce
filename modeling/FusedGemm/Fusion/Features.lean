import FusedGemm.Element
import FusedGemm.Fusion.Activation

/-!
# Features of a fused epilogue

A `Fusion` is what a kernel's epilogue declares beyond the linear combination
`alpha * acc + beta * C`.  `Capabilities` is what of it is active for given output types: the
largest absolute value of an output is tracked only where the output is stored in one of the 8-bit
float formats.
-/

namespace FusedGemm

/-- The declared features of an epilogue. -/
structure Fusion where
  /-- A bias per row is added to the output. -/
  rowBias : Bool := false
  /-- The gradient of a bias per row is reduced from the output. -/
  biasGradient : Bool := false
  /-- Alpha and beta may differ from row to row. -/
  rowScale : Bool := false
  /-- Every operand has a scale factor. -/
  scaleFactors : Bool := false
  /-- An auxiliary tensor is read, at which the activation's derivative is taken. -/
  auxIn : Bool := false
  /-- An auxiliary tensor is written with the values before the activation. -/
  auxOut : Bool := false
  /-- The largest absolute values of the outputs are tracked. -/
  absMax : Bool := false
  activation : Activation := .identity
  deriving DecidableEq

namespace Fusion

/-- Something beyond a linear combination is declared. -/
def declaresFeature (f : Fusion) : Bool :=
  f.rowBias || f.biasGradient || f.rowScale || f.scaleFactors || f.auxIn || f.auxOut || f.absMax ||
    f.activation != .identity

end Fusion

/-- The active features of an epilogue. -/
structure Capabilities where
  rowBias : Bool
  biasGradient : Bool
  rowScale : Bool
  scaleFactors : Bool
  auxIn : Bool
  auxOut : Bool
  absMaxD : Bool
  absMaxAux : Bool
  deriving DecidableEq

namespace Capabilities

/-- The active features of a declaration, for outputs of the given types. -/
def ofFusion (f : Fusion) (typeD typeAux : ElementType) : Capabilities where
  rowBias := f.rowBias
  biasGradient := f.biasGradient
  rowScale := f.rowScale
  scaleFactors := f.scaleFactors
  auxIn := f.auxIn
  auxOut := f.auxOut
  absMaxD := f.absMax && typeD.isFloat8
  absMaxAux := f.auxOut && f.absMax && typeAux.isFloat8

/-- A bias vector is needed, as input or as gradient. -/
def needsBias (c : Capabilities) : Bool := c.rowBias || c.biasGradient

/-- An auxiliary tensor is needed, as input or as output. -/
def needsAux (c : Capabilities) : Bool := c.auxIn || c.auxOut

end Capabilities

end FusedGemm
