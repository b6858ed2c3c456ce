import FusedGemm.Proofs.Device.Counting

/-!
# What a device remembers

A store that forgets nothing would hold at a pointer what its latest event says: the zeros it was
granted, the bytes last written there, or nothing once it is freed.  The memory of a device holds
exactly that (`Session.Faithful`), and so a session reads what `remembered` tells
(`faithful_performAll`).  An operation touches no pointer but its target, a pointer that is freed
stays invalid, and an operation that reports an error leaves everything as it was.
-/

namespace FusedGemm

/-- What a store that forgets nothing holds at a pointer after the given events. -/
def remembered (p : Pointer) : List Event → Option (List UInt8)
  | [] => none
  | .granted q n :: events => if q = p then some (List.replicate n 0) else remembered p events
  | .written q bytes :: events => if q = p then some bytes else remembered p events
  | .freed q :: events => if q = p then none else remembered p events

/-- The pointer that an event is about. -/
def Event.pointer : Event → Pointer
  | granted p _ => p
  | written p _ => p
  | freed p => p

namespace Device

variable {device device' : Device} {p q : Pointer} {n : Nat} {bytes : List UInt8}

theorem contents?_grant (device : Device) (n : Nat) (q : Pointer) :
    (device.grant n).contents? q =
      if device.nextPointer = q then some (List.replicate n 0) else device.contents? q := by
  unfold contents? grant
  by_cases hq : device.nextPointer = q
  · rw [if_pos hq, List.find?_cons_of_pos (by simpa using hq)]
    rfl
  · rw [if_neg hq, List.find?_cons_of_neg (by simpa using hq)]

theorem release_of_free (h : device.free p = .ok device') : device.release p = device' := by
  unfold release
  rw [h]

theorem contents?_release_self (device : Device) (p : Pointer) :
    (device.release p).contents? p = none := by
  rw [contents?_eq_none_iff, pointers, allocations_release]
  intro hmem
  obtain ⟨a, ha, hp⟩ := List.mem_map.mp hmem
  have hne : a.pointer ∉ [p] := of_decide_eq_true (List.mem_filter.mp ha).2
  exact hne (List.mem_singleton.mpr hp)

theorem contents?_release_of_ne (hq : q ≠ p) :
    (device.release p).contents? q = device.contents? q := by
  have hothers : (device.release p).others [p] = device.others [p] := by
    rw [others, allocations_release, others, List.filter_filter]
    simp
  exact contents?_eq_of_others hothers (by simpa using hq)

/-- What is live can be written, with as many bytes as it has. -/
theorem exists_write_iff : (∃ device', device.write p bytes = .ok device') ↔
    ∃ old, device.contents? p = some old ∧ old.length = bytes.length := by
  constructor
  · rintro ⟨device', h⟩
    exact (write_eq_ok h).1
  · rintro ⟨old, hc, hl⟩
    exact exists_write_eq_ok hc hl

/-- At a pointer without an allocation every operation fails. -/
theorem errors_of_contents?_eq_none (h : device.contents? p = none) :
    device.free p = .error (.invalidPointer p) ∧
      (∀ bytes, device.write p bytes = .error (.invalidPointer p)) ∧
      ∀ n, device.read p n = .error (.invalidPointer p) := by
  refine ⟨?_, fun bytes => ?_, fun n => ?_⟩
  · rw [free, h]
  · rw [write, h]
  · rw [read, h]

end Device

namespace Buffer

variable {b : Buffer} {bytes : List UInt8} {event : Event}

theorem eq_of_granted? (h : b.granted? = some event) : event = .granted b.pointer b.length := by
  unfold Buffer.granted? at h
  split_ifs at h
  exact (Option.some.inj h).symm

theorem eq_of_written? (h : b.written? bytes = some event) : event = .written b.pointer bytes := by
  unfold Buffer.written? at h
  split_ifs at h
  exact (Option.some.inj h).symm

end Buffer

namespace Operation

variable {op : Operation} {device : Device} {p q : Pointer}

/-- The pointer that an operation may change something at. -/
def target? : Operation → Option Pointer
  | free p => some p
  | write p _ => some p
  | upload b _ => some b.pointer
  | drop b => some b.pointer
  | push s => s.buffer.map Buffer.pointer
  | _ => none

/-- The pointer that an operation reads; a buffer without bytes has nothing to read. -/
def source? : Operation → Option Pointer
  | read p _ => some p
  | download b _ => if b.length = 0 then none else some b.pointer
  | pull s => s.buffer.bind fun b => if b.length = 0 then none else some b.pointer
  | _ => none

theorem exists_of_event_settle {α : Type} {x : Except DeviceError α} {reply : α → Reply}
    {event : Event} (h : (op.settle device x reply).event = some event) :
    ∃ a, (reply a).event = some event := by
  cases x with
  | error e => cases h
  | ok a => exact ⟨a, h⟩

/-- The event of an operation is about its target, unless it grants an allocation. -/
theorem granted_or_target_of_event {event : Event} (h : (op.run device).event = some event) :
    (∃ p n, event = .granted p n) ∨ op.target? = some event.pointer := by
  cases op with
  | allocate n =>
    obtain ⟨r, hr⟩ := exists_of_event_settle h
    exact Or.inl ⟨_, _, (Option.some.inj hr).symm⟩
  | makeBuffer n =>
    obtain ⟨r, hr⟩ := exists_of_event_settle h
    exact Or.inl ⟨_, _, Buffer.eq_of_granted? hr⟩
  | stage t =>
    obtain ⟨r, hr⟩ := exists_of_event_settle h
    obtain ⟨b, -, hb⟩ := Option.bind_eq_some_iff.mp hr
    exact Or.inl ⟨_, _, Buffer.eq_of_granted? hb⟩
  | free p =>
    obtain ⟨device', hr⟩ := exists_of_event_settle h
    obtain rfl := Option.some.inj hr
    exact Or.inr rfl
  | write p bytes =>
    obtain ⟨device', hr⟩ := exists_of_event_settle h
    obtain rfl := Option.some.inj hr
    exact Or.inr rfl
  | upload b bytes =>
    obtain ⟨device', hr⟩ := exists_of_event_settle h
    obtain rfl := Buffer.eq_of_written? hr
    exact Or.inr rfl
  | push s =>
    obtain ⟨device', hr⟩ := exists_of_event_settle h
    obtain ⟨b, hs, hb⟩ := Option.bind_eq_some_iff.mp hr
    obtain rfl := Buffer.eq_of_written? hb
    exact Or.inr (congrArg (Option.map Buffer.pointer) hs)
  | drop b =>
    obtain ⟨bytes, -, rfl⟩ := Option.map_eq_some_iff.mp h
    exact Or.inr rfl
  | read p bytes =>
    obtain ⟨found, hr⟩ := exists_of_event_settle h
    cases hr
  | download b bytes =>
    obtain ⟨found, hr⟩ := exists_of_event_settle h
    cases hr
  | pull s =>
    obtain ⟨s', hr⟩ := exists_of_event_settle h
    cases hr
  | failNext e => cases h
  | synchronize => cases h

/-- **An operation changes nothing at a live pointer that is not its target.** -/
theorem contents?_run (hd : device.Sound) (hq : q ∈ device.pointers) (ht : op.target? ≠ some q) :
    (op.run device).device.contents? q = device.contents? q := by
  have htarget : ∀ event, (op.run device).event = some event →
      (∃ p n, event = .granted p n) ∨ op.target? = some event.pointer :=
    fun _ => granted_or_target_of_event
  have heffect := effect_run op device
  generalize (op.run device).event = event at htarget heffect
  generalize (op.run device).device = device' at heffect ⊢
  cases heffect with
  | kept pending => rfl
  | granted ha =>
    obtain ⟨-, rfl⟩ := Device.allocate_eq_ok ha
    have hne : device.nextPointer ≠ q := fun heq => hd.nextPointer_notMem (heq ▸ hq)
    rw [Device.contents?_grant, if_neg hne]
  | @written p bytes device' hw =>
    have hp : op.target? = some p := by
      rcases htarget _ rfl with ⟨_, _, hgranted⟩ | hp
      · cases hgranted
      · exact hp
    exact Device.contents?_write_of_ne hw fun heq => ht (heq ▸ hp)
  | @freed p device' hf =>
    have hp : op.target? = some p := by
      rcases htarget _ rfl with ⟨_, _, hgranted⟩ | hp
      · cases hgranted
      · exact hp
    rw [← Device.release_of_free hf]
    exact Device.contents?_release_of_ne fun heq => ht (heq ▸ hp)

/-- What an operation that reads leaves on the host is what it has read. -/
theorem contents?_source (hs : op.source? = some p) (herror : (op.run device).error = none) :
    device.contents? p = some (op.run device).host := by
  have hread : ∀ q bytes, ((read q bytes).run device).error = none →
      device.contents? q = some ((read q bytes).run device).host := by
    intro q bytes he
    simp only [run, settle] at he ⊢
    cases hfound : device.read q bytes.length with
    | error e =>
      rw [hfound] at he
      cases he
    | ok found => exact (Device.read_eq_ok_iff.mp hfound).1
  have hdownload : ∀ b bytes, (download b bytes).source? = some p →
      ((download b bytes).run device).error = none →
      device.contents? p = some ((download b bytes).run device).host := by
    intro b bytes hb he
    simp only [source?] at hb
    rw [run_download] at he ⊢
    split_ifs at hb he ⊢ with hsize hzero
    obtain rfl := Option.some.inj hb
    exact hread b.pointer bytes he
  cases op with
  | read q bytes =>
    obtain rfl := Option.some.inj hs
    exact hread q bytes herror
  | download b bytes => exact hdownload b bytes hs herror
  | pull s =>
    rw [run_pull] at herror ⊢
    simp only [source?] at hs
    cases hb : s.buffer with
    | none =>
      rw [hb] at hs
      cases hs
    | some b =>
      rw [hb] at hs herror
      exact hdownload b _ hs herror
  | _ => cases hs

end Operation

namespace Session

variable {s : Session} {device' : Device} {p q : Pointer}

/-- **The memory holds what a store that forgets nothing would.** -/
structure Faithful (s : Session) : Prop where
  accounted : s.Accounted
  contents?_eq : ∀ q, s.device.contents? q = remembered q s.events

theorem Faithful.effect {event : Option Event} (h : s.Faithful)
    (he : Operation.Effect s.device event device') :
    Faithful ⟨device', event.toList ++ s.events⟩ := by
  refine ⟨h.accounted.effect he, fun q => ?_⟩
  cases he with
  | kept pending => exact h.contents?_eq q
  | granted ha =>
    obtain ⟨rfl, rfl⟩ := Device.allocate_eq_ok ha
    show (s.device.grant _).contents? q = if s.device.nextPointer = q then _ else
      remembered q s.events
    rw [Device.contents?_grant, h.contents?_eq]
  | @written p bytes device' hw =>
    show device'.contents? q = if p = q then some bytes else remembered q s.events
    by_cases hp : p = q
    · rw [if_pos hp, ← hp, Device.contents?_write_self hw]
    · rw [if_neg hp, Device.contents?_write_of_ne hw (Ne.symm hp), h.contents?_eq]
  | @freed p device' hf =>
    show device'.contents? q = if p = q then none else remembered q s.events
    rw [← Device.release_of_free hf]
    by_cases hp : p = q
    · rw [if_pos hp, ← hp, Device.contents?_release_self]
    · rw [if_neg hp, Device.contents?_release_of_ne (Ne.symm hp), h.contents?_eq]

theorem Faithful.performAll (h : s.Faithful) (ops : List Operation) : (s.performAll ops).Faithful :=
  performAll_of_effect (P := Faithful) (fun _ _ _ => Faithful.effect) ops h

theorem faithful_start (capacity : Option Nat) : (start capacity).Faithful :=
  ⟨accounted_start capacity, fun _ => rfl⟩

/-- Operations at other pointers leave what is live, and leave it live. -/
theorem Accounted.contents?_performAll (h : s.Accounted) (hq : q ∈ s.device.pointers)
    {ops : List Operation} (ht : ∀ op ∈ ops, op.target? ≠ some q) :
    (s.performAll ops).device.contents? q = s.device.contents? q := by
  induction ops generalizing s with
  | nil => rfl
  | cons op ops ih =>
    have hop : (s.perform op).device.contents? q = s.device.contents? q :=
      Operation.contents?_run h.sound hq (ht op List.mem_cons_self)
    have hlive : q ∈ (s.perform op).device.pointers := by
      by_contra hnot
      rw [Device.contents?_eq_none_iff.mpr hnot] at hop
      exact Device.contents?_eq_none_iff.mp hop.symm hq
    have hops := ih (h.effect (op.effect_run s.device)) hlive
      fun op' hop' => ht op' (List.mem_cons_of_mem op hop')
    exact hops.trans hop

/-- Nothing that has been freed comes to be unfreed. -/
theorem freed_performAll (s : Session) (hp : p ∈ s.freed) (ops : List Operation) :
    p ∈ (s.performAll ops).freed := by
  refine performAll_of_effect (P := fun s => p ∈ s.freed) ?_ ops hp
  intro s event device' hs _
  have hfreed : freed ⟨device', event.toList ++ s.events⟩ =
      event.toList.filterMap Event.freed? ++ s.freed := List.filterMap_append
  rw [hfreed]
  exact List.mem_append_right _ hs

/-- **A device is a store that forgets nothing, whatever has been asked of it.**  What is read is
what is remembered, be it read through the memory, a buffer or a staged tensor, and what is
remembered can be overwritten at its length; operations at other pointers leave it; a pointer that
has been freed is invalid for good, and dropping a buffer with such a pointer does nothing; an
operation that reports an error leaves the allocations, the counters and the bytes on the host. -/
theorem faithful_performAll (capacity : Option Nat) (ops : List Operation) :
    let s := (start capacity).performAll ops
    (∀ p n found, s.device.read p n = .ok found ↔
      remembered p s.events = some found ∧ found.length = n) ∧
    (∀ p bytes, (∃ device', s.device.write p bytes = .ok device') ↔
      ∃ old, remembered p s.events = some old ∧ old.length = bytes.length) ∧
    (∀ (op : Operation) p, op.source? = some p → (op.run s.device).error = none →
      remembered p s.events = some (op.run s.device).host) ∧
    (∀ q (later : List Operation), q ∈ s.device.pointers → (∀ op ∈ later, op.target? ≠ some q) →
      (s.performAll later).device.contents? q = s.device.contents? q) ∧
    (∀ p later, p ∈ s.freed →
      let s' := s.performAll later
      s'.device.free p = .error (.invalidPointer p) ∧
      (∀ bytes, s'.device.write p bytes = .error (.invalidPointer p)) ∧
      (∀ n, s'.device.read p n = .error (.invalidPointer p)) ∧
      ∀ b, b.pointer = p → (Operation.drop b).run s'.device = { device := s'.device }) ∧
    (∀ (op : Operation) e, (op.run s.device).error = some e →
      (op.run s.device).host = op.destination ∧
      ∃ pending, (op.run s.device).device = { s.device with pending := pending }) := by
  intro s
  have h : s.Faithful := (faithful_start capacity).performAll ops
  refine ⟨fun p n found => ?_, fun p bytes => ?_, fun op p hsource herror => ?_,
    fun q later hq ht => ?_, fun p later hp => ?_, fun op e he => ?_⟩
  · rw [← h.contents?_eq]
    exact Device.read_eq_ok_iff
  · rw [← h.contents?_eq]
    exact Device.exists_write_iff
  · rw [← h.contents?_eq]
    exact Operation.contents?_source hsource herror
  · exact h.accounted.contents?_performAll hq ht
  · intro s'
    have hgone : s'.device.contents? p = none := by
      rw [Device.contents?_eq_none_iff]
      intro hmem
      exact ((h.performAll later).accounted.of_mem_pointers hmem).2 (s.freed_performAll hp later)
    obtain ⟨hfree, hwrite, hread⟩ := Device.errors_of_contents?_eq_none hgone
    refine ⟨hfree, hwrite, hread, ?_⟩
    rintro b rfl
    simp only [Operation.run, Device.release, hfree, hgone, Option.map_none]
  · obtain ⟨-, hhost, hdevice⟩ := Operation.run_of_error he
    exact ⟨hhost, hdevice⟩

/-- The buffer that is dropped last was freed by hand, and its place has been granted again. -/
example : ((start (some 2)).performAll [.makeBuffer 2, .free ⟨1⟩, .makeBuffer 2,
    .upload ⟨⟨2⟩, 2⟩ [7, 8], .drop ⟨⟨1⟩, 2⟩]).device.contents? ⟨2⟩ = some [7, 8] := by decide

end Session

end FusedGemm
