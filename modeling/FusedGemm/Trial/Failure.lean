import FusedGemm.Config.Error
import FusedGemm.Device.Error

/-!
# Failures of a trial
-/

namespace FusedGemm

/-- Why a trial has no outcome. -/
inductive Failure where
  | config (error : ConfigError)
  | device (error : DeviceError)
  /-- The size of a tensor is not addressable. -/
  | oversized (tensor : String) (extent : Extent)
  /-- Storage was asked for that is not addressable, and nothing had looked at its size before. -/
  | unaddressable (tensor : String)
  /-- A number was asked for that is not in the storage of its tensor. -/
  | outOfStorage (tensor : String)
  deriving DecidableEq

namespace Failure

/-- The text of a failure. -/
def message : Failure → String
  | .config e => e.message
  | .device e => e.message
  | .oversized tensor extent =>
    "tensor " ++ "`" ++ tensor ++ "` with extent " ++ extent.text ++ " cannot be represented"
  | .unaddressable tensor => "the storage of tensor " ++ tensor ++ " cannot be addressed"
  | .outOfStorage tensor => "tensor " ++ tensor ++ " has no such element"

end Failure

end FusedGemm
