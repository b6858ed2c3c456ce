import FusedGemm.Element
import FusedGemm.Numeric.Decimal
import FusedGemm.Tensor.Layout

/-!
# Configuration errors
-/

namespace FusedGemm

/-- Why a configuration or a problem shape is refused. -/
inductive ConfigError where
  /-- Neither matrix mode of a declared stride is one. -/
  | unsupportedStride (operand : String) (stride : Stride)
  | unknownOperand (operand : String)
  /-- A bias is both read and reduced to. -/
  | biasWithGradient
  /-- An auxiliary tensor is both read and written. -/
  | auxInWithAuxOut
  /-- A complex type takes part in an epilogue with features. -/
  | complexEpilogue (type : ElementType)
  /-- There is no batch. -/
  | zeroBatch
  /-- The tolerance of a relative comparison is negative or no finite number. -/
  | invalidEpsilon (epsilon : Float)
  deriving DecidableEq

namespace ConfigError

/-- The text of an error. -/
def message : ConfigError → String
  | .unsupportedStride operand stride =>
    "stride [" ++ stride.row.repr ++ ", " ++ stride.col.repr ++ ", " ++ stride.batch.repr ++
      "] of operand " ++ operand ++ " is neither row- nor column-major"
  | .unknownOperand operand =>
    "unknown operand `" ++ operand ++ "`, expected one of A, B, C, D, Aux"
  | .biasWithGradient => "per-row bias and bias gradient cannot share the bias tensor"
  | .auxInWithAuxOut => "auxiliary input and auxiliary output cannot share the aux tensor"
  | .complexEpilogue type =>
    "complex element type " ++ type.name ++ " only supports a plain linear combination epilogue"
  | .zeroBatch => "batch count must be at least 1"
  | .invalidEpsilon epsilon =>
    "relative epsilon must be finite and non-negative, got " ++ plainText epsilon

end ConfigError

end FusedGemm
