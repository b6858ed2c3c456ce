import FusedGemm.Gemm.Problem

/-!
# Broadcasting alpha and beta

Alpha and beta are one number each, one per batch, or one per row and batch.  The numbers are stored
one after the other; `Broadcast.layout` is the view of them over the output extent, whose zero
strides repeat a number along the modes it does not depend on.
-/

namespace FusedGemm

/-- Where alpha, beta and the scale factors are when a kernel reads them. -/
inductive ScalarLocation where
  /-- Passed by value. -/
  | host
  /-- Read from device memory. -/
  | device
  deriving DecidableEq

namespace ScalarLocation

/-- Both locations. -/
def all : List ScalarLocation := [.host, .device]

/-- The name of a location in configurations. -/
def name : ScalarLocation → String
  | .host => "Host"
  | .device => "Device"

end ScalarLocation

/-- Whether an epilogue that can scale each row reads a number for each row. -/
inductive VectorScale where
  | disabled
  | enabled
  deriving DecidableEq

namespace VectorScale

/-- Both settings. -/
def all : List VectorScale := [.disabled, .enabled]

/-- The name of a setting in configurations. -/
def name : VectorScale → String
  | .disabled => "Disabled"
  | .enabled => "Enabled"

end VectorScale

/-- What alpha and beta depend on. -/
inductive Broadcast where
  | scalar
  | perBatch
  | perRowPerBatch
  deriving DecidableEq

namespace Broadcast

/-- The name of a broadcast. -/
def name : Broadcast → String
  | .scalar => "Scalar"
  | .perBatch => "PerBatch"
  | .perRowPerBatch => "PerRowPerBatch"

/-- The broadcast of an epilogue: per row where that is both supported and asked for, and else
decided by the location alone. -/
def select (rowScale : Bool) (location : ScalarLocation) (vectorScale : VectorScale) : Broadcast :=
  if rowScale && vectorScale == .enabled then .perRowPerBatch
  else match location with
    | .device => .perBatch
    | .host => .scalar

/-- How many numbers are stored, if that is addressable. -/
def length? (b : Broadcast) (p : Problem) : Option Nat :=
  match b with
  | .scalar => some 1
  | .perBatch => some p.batch
  | .perRowPerBatch => AddressSpace.mul? p.m p.batch

/-- The stride of the stored numbers over the output. -/
def stride (b : Broadcast) (p : Problem) : Stride :=
  match b with
  | .scalar => .none
  | .perBatch => ⟨0, 0, 1⟩
  | .perRowPerBatch => ⟨1, 0, p.m⟩

/-- The view of the stored numbers over the output. -/
def layout (b : Broadcast) (p : Problem) : Layout := ⟨p.outputExtent, b.stride p⟩

/-- The numbers are read from device memory. -/
def onDevice (b : Broadcast) : Bool := b != .scalar

end Broadcast

end FusedGemm
