/-!
# Device errors
-/

namespace FusedGemm

/-- An address in device memory. -/
structure Pointer where
  address : Nat
  deriving DecidableEq

namespace Pointer

/-- The address of nothing. -/
def null : Pointer := ⟨0⟩

/-- The pointer is the address of nothing. -/
def isNull (p : Pointer) : Bool := p.address == 0

end Pointer

/-- Why a device operation failed. -/
inductive DeviceError where
  | outOfMemory (requested available : Nat)
  | invalidPointer (pointer : Pointer)
  | sizeMismatch (length allocation : Nat)
  /-- Work on the device went wrong in a way it cannot recover from. -/
  | fault (reason : String)
  | other (reason : String)
  deriving DecidableEq

namespace DeviceError

/-- The device is not to be used any more. -/
def isFatal : DeviceError → Bool
  | .fault _ => true
  | _ => false

/-- The text of an error. -/
def message : DeviceError → String
  | .outOfMemory requested available =>
    "out of device memory: requested " ++ requested.repr ++ " bytes, " ++ available.repr ++
      " available"
  | .invalidPointer pointer => "invalid device pointer " ++ pointer.address.repr
  | .sizeMismatch length allocation =>
    "copy of " ++ length.repr ++ " bytes does not match allocation of " ++ allocation.repr ++
      " bytes"
  | .fault reason => "device fault: " ++ reason
  | .other reason => "device error: " ++ reason

end DeviceError

end FusedGemm
