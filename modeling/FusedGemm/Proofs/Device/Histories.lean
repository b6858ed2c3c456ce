import FusedGemm.Proofs.Device.Accounting

/-!
# Histories of a device

Whatever can be asked of a device is an `Operation`: what its memory offers, and what buffers and
staged tensors make of it.  Operations come in any order and with any pointers, null ones and those
of allocations that are gone included.  What an operation does to the memory is an `Event`.

* `run_stage`, `run_push`, `run_pull`: a staged tensor is operated through its buffer;
* `run_makeBuffer`, `run_upload`, `run_download`, `run_drop`: a buffer comes down to at most one
  operation of the memory, and to none where it is empty;
* `effect_run`: an operation does what its event says and nothing else, but for the pending error;
* `run_of_error`: an operation that reports an error does nothing.

A `Session` is a device with the events that have led to it.  What every effect keeps holds of every
session (`Session.performAll_of_effect`).
-/

namespace FusedGemm

/-- Only what is live can be read, and it is read as it is. -/
theorem Device.read_eq_ok_iff {device : Device} {p : Pointer} {n : Nat} {found : List UInt8} :
    device.read p n = .ok found ↔ device.contents? p = some found ∧ found.length = n := by
  unfold read
  cases device.contents? p with
  | none => simp
  | some old =>
    by_cases hl : old.length = n
    · simp only [hl, if_true, Except.ok.injEq, Option.some.injEq]
      exact ⟨fun h => ⟨h, h ▸ hl⟩, And.left⟩
    · simp only [hl, if_false, reduceCtorEq, Option.some.injEq, false_iff, not_and]
      rintro rfl
      exact hl

theorem Buffer.length_of_download {b : Buffer} {n : Nat} {device : Device} {found : List UInt8}
    (h : b.download n device = .ok found) : found.length = n := by
  unfold download at h
  split_ifs at h with hsize hzero
  · cases h
    rw [List.length_nil]
    omega
  · exact (Device.read_eq_ok_iff.mp h).2

/-! ### Operations -/

/-- What can be asked of a device. -/
inductive Operation where
  | allocate (length : Nat)
  | free (p : Pointer)
  | write (p : Pointer) (bytes : List UInt8)
  /-- Copies an allocation over the given bytes on the host. -/
  | read (p : Pointer) (destination : List UInt8)
  | failNext (error : DeviceError)
  | synchronize
  | makeBuffer (length : Nat)
  | upload (buffer : Buffer) (bytes : List UInt8)
  | download (buffer : Buffer) (destination : List UInt8)
  /-- Frees what the buffer points to, if it is still there. -/
  | drop (buffer : Buffer)
  | stage (host : Tensor)
  | push (staged : Staged)
  | pull (staged : Staged)

/-- What has happened to the memory of a device. -/
inductive Event where
  | granted (p : Pointer) (length : Nat)
  | written (p : Pointer) (bytes : List UInt8)
  | freed (p : Pointer)

/-- What an operation comes to. -/
structure Reply where
  device : Device
  error : Option DeviceError := none
  event : Option Event := none
  /-- The bytes at the operation's destination on the host. -/
  host : List UInt8 := []

namespace Buffer

/-- The event of making a buffer; one without bytes takes no memory. -/
def granted? (b : Buffer) : Option Event :=
  if b.length = 0 then none else some (.granted b.pointer b.length)

/-- The event of filling a buffer. -/
def written? (b : Buffer) (bytes : List UInt8) : Option Event :=
  if b.length = 0 then none else some (.written b.pointer bytes)

end Buffer

namespace Operation

/-- The bytes on the host that an operation may overwrite. -/
def destination : Operation → List UInt8
  | read _ bytes => bytes
  | download _ bytes => bytes
  | pull staged => staged.host.bytes
  | _ => []

/-- The reply of an operation whose outcome is `x`. -/
def settle {α : Type} (op : Operation) (device : Device) (x : Except DeviceError α)
    (reply : α → Reply) : Reply :=
  match x with
  | .ok a => reply a
  | .error e => { device := device, error := some e, host := op.destination }

/-- Asks a device for an operation. -/
def run (op : Operation) (device : Device) : Reply :=
  match op with
  | allocate n => op.settle device (device.allocate n) fun (p, device') =>
    { device := device', event := some (.granted p n) }
  | free p => op.settle device (device.free p) fun device' =>
    { device := device', event := some (.freed p) }
  | write p bytes => op.settle device (device.write p bytes) fun device' =>
    { device := device', event := some (.written p bytes) }
  | read p bytes => op.settle device (device.read p bytes.length) fun found =>
    { device := device, host := found }
  | failNext e => { device := device.failNext e }
  | synchronize => { device := device.synchronize.2, error := device.synchronize.1 }
  | makeBuffer n => op.settle device (Buffer.allocate n device) fun (b, device') =>
    { device := device', event := b.granted? }
  | upload b bytes => op.settle device (b.upload bytes device) fun device' =>
    { device := device', event := b.written? bytes }
  | download b bytes => op.settle device (b.download bytes.length device) fun found =>
    { device := device, host := found }
  | drop b =>
    { device := device.release b.pointer
      event := (device.contents? b.pointer).map fun _ => .freed b.pointer }
  | stage t => op.settle device (Staged.allocate t device) fun (s, device') =>
    { device := device', event := s.buffer.bind Buffer.granted? }
  | push s => op.settle device (s.push device) fun device' =>
    { device := device', event := s.buffer.bind fun b => b.written? s.host.bytes }
  | pull s => op.settle device (s.pull device) fun s' =>
    { device := device, host := s'.host.bytes }

variable {op : Operation} {device : Device} {p : Pointer} {b : Buffer} {bytes : List UInt8}

/-! ### Staged tensors and buffers -/

theorem run_stage (t : Tensor) (device : Device) :
    (stage t).run device = (makeBuffer t.byteSize).run device := by
  simp only [run, settle, Staged.allocate]
  cases Buffer.allocate t.byteSize device with
  | error e => rfl
  | ok r => rfl

theorem run_push (s : Staged) (device : Device) : (push s).run device =
    match s.buffer with
    | some b => (upload b s.host.bytes).run device
    | none => { device := device } := by
  simp only [run, settle, Staged.push]
  cases s.buffer with
  | none => rfl
  | some b => rfl

theorem run_pull (s : Staged) (device : Device) : (pull s).run device =
    match s.buffer with
    | some b => (download b s.host.bytes).run device
    | none => { device := device, host := s.host.bytes } := by
  simp only [run, settle, Staged.pull]
  cases s.buffer with
  | none => rfl
  | some b =>
    dsimp only
    rw [Tensor.length_bytes]
    cases hfound : b.download s.host.byteSize device with
    | error e => rfl
    | ok found =>
      have hlength := Buffer.length_of_download hfound
      exact congrArg (fun bs => ({ device := device, host := bs } : Reply))
        (Tensor.bytes_withBytes s.host hlength)

theorem run_makeBuffer (n : Nat) (device : Device) : (makeBuffer n).run device =
    if n = 0 then { device := device } else (allocate n).run device := by
  simp only [run, settle, Buffer.allocate]
  by_cases hn : n = 0
  · rw [if_pos hn, if_pos hn]
    rfl
  · rw [if_neg hn, if_neg hn]
    cases device.allocate n with
    | error e => rfl
    | ok r =>
      have hevent : Buffer.granted? ⟨r.1, n⟩ = some (.granted r.1 n) := if_neg hn
      exact congrArg (fun event => ({ device := r.2, event := event } : Reply)) hevent

theorem run_upload (b : Buffer) (bytes : List UInt8) (device : Device) :
    (upload b bytes).run device =
      if bytes.length ≠ b.length then
        { device := device, error := some (.sizeMismatch bytes.length b.length) }
      else if b.length = 0 then { device := device }
      else (write b.pointer bytes).run device := by
  simp only [run, settle, Buffer.upload, Buffer.written?]
  by_cases hsize : bytes.length ≠ b.length
  · rw [if_pos hsize, if_pos hsize]
    rfl
  by_cases hzero : b.length = 0
  · rw [if_neg hsize, if_neg hsize, if_pos hzero, if_pos hzero, if_pos hzero]
  · rw [if_neg hsize, if_neg hsize, if_neg hzero, if_neg hzero, if_neg hzero]
    cases device.write b.pointer bytes with
    | error e => rfl
    | ok device' => rfl

theorem run_download (b : Buffer) (bytes : List UInt8) (device : Device) :
    (download b bytes).run device =
      if bytes.length ≠ b.length then
        { device := device, error := some (.sizeMismatch bytes.length b.length), host := bytes }
      else if b.length = 0 then { device := device }
      else (read b.pointer bytes).run device := by
  simp only [run, settle, Buffer.download]
  by_cases hsize : bytes.length ≠ b.length
  · rw [if_pos hsize, if_pos hsize]
    rfl
  by_cases hzero : b.length = 0
  · rw [if_neg hsize, if_neg hsize, if_pos hzero, if_pos hzero]
  · rw [if_neg hsize, if_neg hsize, if_neg hzero, if_neg hzero]
    cases device.read b.pointer bytes.length with
    | error e => rfl
    | ok found => rfl

/-- Dropping a buffer frees its pointer and does not tell whether that was possible. -/
theorem run_drop (b : Buffer) (device : Device) : (drop b).run device =
    { (free b.pointer).run device with error := none } := by
  simp only [run, settle, Device.release, Device.free]
  cases device.contents? b.pointer with
  | none => rfl
  | some bytes => rfl

/-! ### Effects -/

/-- What operations do to a device, with their event. -/
inductive Effect (device : Device) : Option Event → Device → Prop
  | kept (pending : Option DeviceError) : Effect device none { device with pending := pending }
  | granted {n : Nat} {p : Pointer} {device' : Device} (h : device.allocate n = .ok (p, device')) :
    Effect device (some (.granted p n)) device'
  | written {p : Pointer} {bytes : List UInt8} {device' : Device}
    (h : device.write p bytes = .ok device') : Effect device (some (.written p bytes)) device'
  | freed {p : Pointer} {device' : Device} (h : device.free p = .ok device') :
    Effect device (some (.freed p)) device'

theorem effect_settle {α : Type} {x : Except DeviceError α} {reply : α → Reply}
    (h : ∀ a, x = .ok a → Effect device (reply a).event (reply a).device) :
    Effect device (op.settle device x reply).event (op.settle device x reply).device := by
  cases x with
  | error e => exact .kept device.pending
  | ok a => exact h a rfl

/-- **An operation does what its event says**, and without an event nothing to the memory. -/
theorem effect_run (op : Operation) (device : Device) :
    Effect device (op.run device).event (op.run device).device := by
  have hsame : Effect device none device := .kept device.pending
  have hallocate : ∀ n, Effect device ((allocate n).run device).event
      ((allocate n).run device).device := fun n => effect_settle fun _ h => .granted h
  have hfree : ∀ p, Effect device ((free p).run device).event ((free p).run device).device :=
    fun p => effect_settle fun _ h => .freed h
  have hwrite : ∀ p bytes, Effect device ((write p bytes).run device).event
      ((write p bytes).run device).device := fun p bytes => effect_settle fun _ h => .written h
  have hread : ∀ p bytes, Effect device ((read p bytes).run device).event
      ((read p bytes).run device).device := fun p bytes => effect_settle fun _ _ => hsame
  have hmake : ∀ n, Effect device ((makeBuffer n).run device).event
      ((makeBuffer n).run device).device := by
    intro n
    rw [run_makeBuffer]
    split_ifs
    · exact hsame
    · exact hallocate n
  have hupload : ∀ b bytes, Effect device ((upload b bytes).run device).event
      ((upload b bytes).run device).device := by
    intro b bytes
    rw [run_upload]
    split_ifs
    · exact hsame
    · exact hsame
    · exact hwrite b.pointer bytes
  have hdownload : ∀ b bytes, Effect device ((download b bytes).run device).event
      ((download b bytes).run device).device := by
    intro b bytes
    rw [run_download]
    split_ifs
    · exact hsame
    · exact hsame
    · exact hread b.pointer bytes
  cases op with
  | allocate n => exact hallocate n
  | free p => exact hfree p
  | write p bytes => exact hwrite p bytes
  | read p bytes => exact hread p bytes
  | failNext e => exact .kept (some e)
  | synchronize => exact .kept none
  | makeBuffer n => exact hmake n
  | upload b bytes => exact hupload b bytes
  | download b bytes => exact hdownload b bytes
  | drop b =>
    rw [run_drop]
    exact hfree b.pointer
  | stage t =>
    rw [run_stage]
    exact hmake t.byteSize
  | push s =>
    rw [run_push]
    cases s.buffer with
    | none => exact hsame
    | some b => exact hupload b s.host.bytes
  | pull s =>
    rw [run_pull]
    cases s.buffer with
    | none => exact hsame
    | some b => exact hdownload b s.host.bytes

/-! ### Errors -/

theorem settle_of_error {α : Type} {x : Except DeviceError α} {reply : α → Reply} {e : DeviceError}
    (hreply : ∀ a, (reply a).error = none) (h : (op.settle device x reply).error = some e) :
    op.settle device x reply = { device := device, error := some e, host := op.destination } := by
  cases x with
  | error e' =>
    have he : e' = e := Option.some.inj h
    rw [← he]
    rfl
  | ok a =>
    have hnone : (op.settle device (.ok a) reply).error = none := hreply a
    rw [hnone] at h
    cases h

/-- **An operation that reports an error does nothing**, to the device or the bytes on the host,
but that a synchronization forgets the error it reports. -/
theorem run_of_error {e : DeviceError} (h : (op.run device).error = some e) :
    (op.run device).event = none ∧ (op.run device).host = op.destination ∧
      ∃ pending, (op.run device).device = { device with pending := pending } := by
  have hsettled : ∀ {α : Type} {x : Except DeviceError α} {reply : α → Reply},
      op.run device = op.settle device x reply → (∀ a, (reply a).error = none) →
      (op.run device).event = none ∧ (op.run device).host = op.destination ∧
        ∃ pending, (op.run device).device = { device with pending := pending } := by
    intro α x reply hrun hreply
    rw [hrun] at h ⊢
    rw [settle_of_error hreply h]
    exact ⟨rfl, rfl, device.pending, rfl⟩
  cases op with
  | failNext e' => cases h
  | drop b => cases h
  | synchronize => exact ⟨rfl, rfl, none, rfl⟩
  | _ => exact hsettled rfl fun _ => rfl

end Operation

/-! ### Sessions -/

/-- A device and the events that have led to it, the latest first. -/
structure Session where
  device : Device
  events : List Event

namespace Session

/-- A device that nothing has been asked of. -/
def start (capacity : Option Nat) : Session := ⟨{ capacity := capacity }, []⟩

/-- Asks the device of a session for an operation. -/
def perform (s : Session) (op : Operation) : Session :=
  ⟨(op.run s.device).device, (op.run s.device).event.toList ++ s.events⟩

/-- Asks for one operation after the other, whether or not they succeed. -/
def performAll (s : Session) (ops : List Operation) : Session := ops.foldl perform s

/-- **What every effect keeps holds after any operations.** -/
theorem performAll_of_effect {P : Session → Prop}
    (heffect : ∀ s event device', P s → Operation.Effect s.device event device' →
      P ⟨device', event.toList ++ s.events⟩) :
    ∀ (ops : List Operation) {s : Session}, P s → P (s.performAll ops)
  | [], _, hs => hs
  | op :: ops, s, hs =>
    performAll_of_effect heffect ops (heffect s _ _ hs (op.effect_run s.device))

end Session

end FusedGemm
