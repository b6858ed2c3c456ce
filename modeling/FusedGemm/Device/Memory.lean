import FusedGemm.Device.Error

/-!
# Device memory

A `Device` holds its live allocations, each with its bytes, and counts what it has granted.  The
`n`-th allocation gets the address `n`, so no address is used twice and a freed pointer stays
invalid.  A device may have a capacity, beyond which it grants nothing, and a pending error, which
the next synchronization reports.

An operation that fails has no new device to offer: `Except DeviceError Device` says that an error
changes nothing.
-/

namespace FusedGemm

/-- A live allocation. -/
structure Allocation where
  pointer : Pointer
  bytes : List UInt8
  deriving DecidableEq

/-- The state of a device. -/
structure Device where
  /-- The number of bytes that may be allocated at a time; without one, any number. -/
  capacity : Option Nat := none
  /-- The live allocations, the latest first. -/
  allocations : List Allocation := []
  /-- The number of bytes in live allocations. -/
  allocatedBytes : Nat := 0
  /-- The number of allocations granted so far. -/
  totalAllocations : Nat := 0
  /-- The error that the next synchronization reports. -/
  pending : Option DeviceError := none
  deriving DecidableEq

namespace Device

variable (device : Device)

/-! ## Allocations -/

/-- The number of live allocations. -/
def liveAllocations : Nat := device.allocations.length

/-- The number of bytes that can still be allocated, where there is a bound. -/
def available? : Option Nat := device.capacity.map (· - device.allocatedBytes)

/-- The bytes of the live allocation at a pointer. -/
def contents? (p : Pointer) : Option (List UInt8) :=
  (device.allocations.find? fun a => a.pointer == p).map Allocation.bytes

/-- The pointer that the next allocation gets. -/
def nextPointer : Pointer := ⟨device.totalAllocations + 1⟩

/-- The device with one more allocation, of `length` zero bytes. -/
def grant (length : Nat) : Device :=
  { device with
    allocations := ⟨device.nextPointer, List.replicate length 0⟩ :: device.allocations
    allocatedBytes := device.allocatedBytes + length
    totalAllocations := device.totalAllocations + 1 }

/-- Allocates zero bytes. -/
def allocate (length : Nat) : Except DeviceError (Pointer × Device) :=
  match device.available? with
  | some available =>
    if available < length then .error (.outOfMemory length available)
    else .ok (device.nextPointer, device.grant length)
  | none => .ok (device.nextPointer, device.grant length)

/-- Gives an allocation back. -/
def free (p : Pointer) : Except DeviceError Device :=
  match device.contents? p with
  | none => .error (.invalidPointer p)
  | some bytes =>
    .ok { device with
      allocations := device.allocations.filter fun a => a.pointer != p
      allocatedBytes := device.allocatedBytes - bytes.length }

/-- Gives an allocation back if it is live. -/
def release (p : Pointer) : Device :=
  match device.free p with
  | .ok device' => device'
  | .error _ => device

/-- Gives several allocations back, those that are live. -/
def releaseAll (ps : List Pointer) : Device := ps.foldl release device

/-! ## Copies -/

/-- Overwrites an allocation.  Its length has to be that of the bytes. -/
def write (p : Pointer) (bytes : List UInt8) : Except DeviceError Device :=
  match device.contents? p with
  | none => .error (.invalidPointer p)
  | some old =>
    if old.length = bytes.length then
      .ok { device with
        allocations := device.allocations.map fun a =>
          if a.pointer = p then { a with bytes := bytes } else a }
    else .error (.sizeMismatch bytes.length old.length)

/-- The bytes of an allocation of the given length. -/
def read (p : Pointer) (length : Nat) : Except DeviceError (List UInt8) :=
  match device.contents? p with
  | none => .error (.invalidPointer p)
  | some bytes =>
    if bytes.length = length then .ok bytes else .error (.sizeMismatch length bytes.length)

/-! ## Synchronization -/

/-- Lets the next synchronization report an error. -/
def failNext (error : DeviceError) : Device := { device with pending := some error }

/-- Waits for the work issued so far: the pending error, if any, and the device without it. -/
def synchronize : Option DeviceError × Device := (device.pending, { device with pending := none })

end Device

end FusedGemm
