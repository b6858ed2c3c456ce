import FusedGemm.Device.Memory
import FusedGemm.Tensor.Bytes

/-!
# Buffers and staged tensors

A `Buffer` is an allocation together with its length; a buffer of length zero is null and does not
touch the device.  A `Staged` is a tensor on the host with a buffer of the same size.  The two
copies are brought together only by `Staged.push` and `Staged.pull`.
-/

namespace FusedGemm

/-- An allocation of known length. -/
structure Buffer where
  pointer : Pointer
  length : Nat
  deriving DecidableEq

namespace Buffer

/-- A buffer of the given length. -/
def allocate (length : Nat) (device : Device) : Except DeviceError (Buffer × Device) :=
  if length = 0 then .ok (⟨.null, 0⟩, device)
  else do
    let (pointer, device') ← device.allocate length
    return (⟨pointer, length⟩, device')

/-- Copies bytes to the buffer. -/
def upload (buffer : Buffer) (bytes : List UInt8) (device : Device) : Except DeviceError Device :=
  if bytes.length ≠ buffer.length then .error (.sizeMismatch bytes.length buffer.length)
  else if buffer.length = 0 then .ok device
  else device.write buffer.pointer bytes

/-- The bytes of the buffer, read into a place of the given length. -/
def download (buffer : Buffer) (length : Nat) (device : Device) :
    Except DeviceError (List UInt8) :=
  if length ≠ buffer.length then .error (.sizeMismatch length buffer.length)
  else if buffer.length = 0 then .ok []
  else device.read buffer.pointer length

end Buffer

/-- A tensor as a kernel sees it. -/
structure TensorArgument where
  pointer : Pointer
  type : ElementType
  layout : Layout
  deriving DecidableEq

/-- A tensor on the host and its buffer on a device, if it has one. -/
structure Staged where
  host : Tensor
  buffer : Option Buffer

namespace Staged

/-- A tensor with a fresh buffer of its size, which does not hold its bytes yet. -/
def allocate (host : Tensor) (device : Device) : Except DeviceError (Staged × Device) := do
  let (buffer, device') ← Buffer.allocate host.byteSize device
  return (⟨host, some buffer⟩, device')

/-- A tensor that is on the host only. -/
def hostOnly (host : Tensor) : Staged := ⟨host, none⟩

variable (staged : Staged)

/-- The pointer of the buffer, null without one. -/
def pointer : Pointer := (staged.buffer.map Buffer.pointer).getD .null

/-- The length of the buffer, zero without one. -/
def deviceLength : Nat := (staged.buffer.map Buffer.length).getD 0

/-- Copies the tensor to its buffer. -/
def push (device : Device) : Except DeviceError Device :=
  match staged.buffer with
  | some buffer => buffer.upload staged.host.bytes device
  | none => .ok device

/-- Copies the buffer to the tensor. -/
def pull (device : Device) : Except DeviceError Staged :=
  match staged.buffer with
  | some buffer => do
    let bytes ← buffer.download staged.host.byteSize device
    return ⟨staged.host.withBytes bytes, staged.buffer⟩
  | none => .ok staged

/-- What a kernel is told about the tensor. -/
def argument : TensorArgument := ⟨staged.pointer, staged.host.type, staged.host.layout⟩

end Staged

end FusedGemm
