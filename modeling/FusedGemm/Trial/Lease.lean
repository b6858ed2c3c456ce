import FusedGemm.Trial.Plan

/-!
# Leases

A `Lease` is a device together with the allocations that have been made on it.  An action of
`Acquire` adds to them and can fail.  `Acquire.run` gives everything back if it does: a failed
action leaves the device with the allocations that it had, whatever the point of failure.
-/

namespace FusedGemm

/-- A device and the allocations held on it, the latest first. -/
structure Lease where
  device : Device
  held : List Pointer := []

/-- Actions that hold more and more allocations and can fail. -/
abbrev Acquire := ExceptT Failure (StateM Lease)

namespace Acquire

variable {α : Type}

/-- Does nothing but to fail where a value is missing. -/
def ofExcept (x : Except Failure α) : Acquire α := fun lease => (x, lease)

/-- Holds a buffer for a tensor. -/
def hold (t : Tensor) : Acquire Staged := fun lease =>
  match Staged.allocate t lease.device with
  | .ok (staged, device) => (.ok staged, ⟨device, staged.pointer :: lease.held⟩)
  | .error e => (.error (.device e), lease)

/-- Copies a tensor to its buffer. -/
def push (staged : Staged) : Acquire Staged := fun lease =>
  match staged.push lease.device with
  | .ok device => (.ok staged, { lease with device := device })
  | .error e => (.error (.device e), lease)

/-- Places a tensor: in device memory with its contents, or on the host alone. -/
def place (p : Placement) : Acquire Staged :=
  if p.onDevice then do
    let staged ← hold p.tensor
    push staged
  else return .hostOnly p.tensor

/-- Runs an action on a device and gives back what it holds if it fails. -/
def run (action : Acquire α) (device : Device) : Except Failure α × Device :=
  match ExceptT.run action ⟨device, []⟩ with
  | (.ok x, lease) => (.ok x, lease.device)
  | (.error e, lease) => (.error e, lease.device.releaseAll lease.held)

end Acquire

end FusedGemm
