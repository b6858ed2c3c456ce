import FusedGemm.Proofs.Device.Accounting
import FusedGemm.Trial.Lease

/-!
# Placing operands one after the other

While operands are placed, a lease *holds* those placed so far: on top of what the device had, there
is one allocation for each of them that is not empty, with the contents of its host copy, and the
lease's list names the same pointers.  An action *places* operands if it keeps this, also where it
fails and only some of them are placed (`Places`).  Placing one tensor does (`Places.place`), and
one action after another does if both do (`Places.bind`).

Giving back what is held leaves the allocations that the device had before (`Holds.others_eq`), so a
failed run does (`allocations_run_of_error`).
-/

namespace FusedGemm

/-! ### The allocation of a staged tensor -/

namespace Staged

variable {staged : Staged}

/-- The allocation of a staged tensor whose buffer holds the bytes of its host copy, if it has one. -/
def allocation? (staged : Staged) : Option Allocation :=
  if staged.pointer = .null then none else some ⟨staged.pointer, staged.host.bytes⟩

/-- A buffer has the size of the host copy, and is null where that is empty. -/
def Fits (staged : Staged) : Prop :=
  ∀ buffer ∈ staged.buffer, buffer.length = staged.host.byteSize ∧
    (buffer.pointer = .null ↔ buffer.length = 0)

theorem allocation?_eq_some (h : staged.pointer ≠ .null) :
    staged.allocation? = some ⟨staged.pointer, staged.host.bytes⟩ := if_neg h

theorem mem_allocation? {a : Allocation} :
    a ∈ staged.allocation? ↔ staged.pointer ≠ .null ∧ a = ⟨staged.pointer, staged.host.bytes⟩ := by
  unfold allocation?
  split_ifs with h
  · simp [h]
  · simp [h, eq_comm]

theorem pointer_mk (t : Tensor) (b : Buffer) : (⟨t, some b⟩ : Staged).pointer = b.pointer := rfl

end Staged

/-- The allocations of staged tensors, the latest first. -/
def Staged.stack (done : List Staged) : List Allocation := (done.filterMap Staged.allocation?).reverse

theorem Staged.stack_append (done done' : List Staged) :
    Staged.stack (done ++ done') = Staged.stack done' ++ Staged.stack done := by
  simp [stack]

theorem Staged.stack_singleton {staged : Staged} :
    Staged.stack [staged] = staged.allocation?.toList := by
  unfold stack
  cases h : staged.allocation? <;> simp [h]

theorem Staged.mem_map_pointer_stack {done : List Staged} {p : Pointer} :
    p ∈ (Staged.stack done).map Allocation.pointer ↔ p ≠ .null ∧ p ∈ done.map Staged.pointer := by
  simp only [stack, List.mem_map, List.mem_reverse, List.mem_filterMap]
  constructor
  · rintro ⟨a, ⟨staged, hs, ha⟩, rfl⟩
    obtain ⟨hne, rfl⟩ := mem_allocation?.mp ha
    exact ⟨hne, staged, hs, rfl⟩
  · rintro ⟨hne, staged, hs, rfl⟩
    exact ⟨_, ⟨staged, hs, allocation?_eq_some hne⟩, rfl⟩

/-! ### What a lease holds -/

/-- The lease holds the allocations of `done`, on top of those that `device` had. -/
structure Holds (device : Device) (done : List Staged) (lease : Lease) : Prop where
  sound : lease.device.Sound
  allocations_eq : lease.device.allocations = Staged.stack done ++ device.allocations
  held_iff : ∀ p, p ≠ .null → (p ∈ lease.held ↔ p ∈ done.map Staged.pointer)
  pending_eq : lease.device.pending = device.pending
  fits : ∀ staged ∈ done, staged.Fits

namespace Holds

variable {device : Device} {done : List Staged} {lease : Lease}

theorem start (h : device.Sound) : Holds device [] ⟨device, []⟩ where
  sound := h
  allocations_eq := rfl
  held_iff := by simp
  pending_eq := rfl
  fits := by simp

theorem pointers_eq (h : Holds device done lease) :
    lease.device.pointers = (Staged.stack done).map Allocation.pointer ++ device.pointers := by
  unfold Device.pointers
  rw [h.allocations_eq, List.map_append]

/-- No operand is placed at a pointer that was live before. -/
theorem fresh (h : Holds device done lease) {p : Pointer} (hne : p ≠ .null)
    (hp : p ∈ done.map Staged.pointer) : p ∉ device.pointers := by
  have hnodup := h.sound.nodup
  rw [h.pointers_eq] at hnodup
  exact List.disjoint_of_nodup_append hnodup (Staged.mem_map_pointer_stack.mpr ⟨hne, hp⟩)

/-- **Giving back the operands' pointers leaves the allocations from before.** -/
theorem others_eq (h : Holds device done lease) (hd : device.Sound) {ps : List Pointer}
    (hps : ∀ p, p ≠ .null → (p ∈ ps ↔ p ∈ done.map Staged.pointer)) :
    lease.device.others ps = device.allocations := by
  have htop : (Staged.stack done).filter (fun a => a.pointer ∉ ps) = [] := by
    rw [List.filter_eq_nil_iff]
    intro a ha
    obtain ⟨hne, hp⟩ := Staged.mem_map_pointer_stack.mp (List.mem_map_of_mem ha)
    simpa using (hps _ hne).mpr hp
  have hbottom : device.others ps = device.allocations := by
    refine Device.others_eq_self fun p hp hmem => ?_
    have hne : p ≠ .null := fun hnull => hd.null_notMem (hnull ▸ hmem)
    exact h.fresh hne ((hps p hne).mp hp) hmem
  unfold Device.others at hbottom ⊢
  rw [h.allocations_eq, List.filter_append, htop, hbottom, List.nil_append]

/-- The buffer of a placed operand holds the bytes of its host copy. -/
theorem contents? (h : Holds device done lease) {staged : Staged} (hs : staged ∈ done)
    (hne : staged.pointer ≠ .null) :
    lease.device.contents? staged.pointer = some staged.host.bytes := by
  rw [Device.contents?_eq_some_iff h.sound, h.allocations_eq]
  refine List.mem_append_left _ (List.mem_reverse.mpr (List.mem_filterMap.mpr ⟨staged, hs, ?_⟩))
  exact Staged.allocation?_eq_some hne

/-- Operands that are not empty are placed at pointers of their own. -/
theorem pairwise_pointers (h : Holds device done lease) :
    done.Pairwise fun s s' => s.pointer ≠ .null → s.pointer ≠ s'.pointer := by
  have hnodup := h.sound.nodup
  rw [h.pointers_eq, List.nodup_append, Staged.stack, List.map_reverse, List.nodup_reverse,
    List.Nodup, List.pairwise_map, List.pairwise_filterMap] at hnodup
  refine hnodup.1.imp ?_
  intro s s' hs hne heq
  exact hs _ (Staged.allocation?_eq_some hne) _ (Staged.allocation?_eq_some (heq ▸ hne)) heq

/-- One more operand is placed. -/
theorem append (h : Holds device done lease) {staged : Staged} {lease' : Lease}
    (hsound : lease'.device.Sound)
    (hallocations : lease'.device.allocations =
      staged.allocation?.toList ++ lease.device.allocations)
    (hheld : ∀ p, p ≠ .null → (p ∈ lease'.held ↔ p = staged.pointer ∨ p ∈ lease.held))
    (hpending : lease'.device.pending = lease.device.pending) (hfits : staged.Fits) :
    Holds device (done ++ [staged]) lease' where
  sound := hsound
  allocations_eq := by
    rw [hallocations, h.allocations_eq, Staged.stack_append, Staged.stack_singleton,
      List.append_assoc]
  held_iff p hp := by
    rw [hheld p hp, h.held_iff p hp]
    simp [or_comm, eq_comm]
  pending_eq := hpending.trans h.pending_eq
  fits := by
    intro x hx
    rcases List.mem_append.mp hx with hx | hx
    · exact h.fits x hx
    · rw [List.mem_singleton.mp hx]
      exact hfits

end Holds

/-! ### Placing one operand -/

/-- What is allocated for a tensor: nothing where it is empty, and else as many bytes as it has. -/
theorem Staged.allocate_eq_ok {t : Tensor} {device device' : Device} {staged : Staged}
    (h : Staged.allocate t device = .ok (staged, device')) :
    (t.byteSize = 0 ∧ staged = ⟨t, some ⟨.null, 0⟩⟩ ∧ device' = device) ∨
      (t.byteSize ≠ 0 ∧ staged = ⟨t, some ⟨device.nextPointer, t.byteSize⟩⟩ ∧
        device' = device.grant t.byteSize) := by
  unfold Staged.allocate at h
  cases hb : Buffer.allocate t.byteSize device with
  | error e => rw [hb] at h; cases h
  | ok r =>
    obtain ⟨buffer, granted⟩ := r
    rw [hb] at h
    cases h
    rcases Device.buffer_allocate_eq_ok hb with ⟨hsize, rfl, rfl⟩ | ⟨hsize, rfl, rfl⟩
    · exact Or.inl ⟨hsize, rfl, rfl⟩
    · exact Or.inr ⟨hsize, rfl, rfl⟩

/-- A fresh allocation can be filled. -/
theorem Staged.push_grant {t : Tensor} {device : Device} (hd : device.Sound)
    (hsize : t.byteSize ≠ 0) :
    ∃ device', Staged.push ⟨t, some ⟨device.nextPointer, t.byteSize⟩⟩ (device.grant t.byteSize) =
        .ok device' ∧ device'.Sound ∧
      device'.allocations = ⟨device.nextPointer, t.bytes⟩ :: device.allocations ∧
      device'.pending = device.pending := by
  have hgrant := hd.grant t.byteSize
  have hmem : ⟨device.nextPointer, List.replicate t.byteSize 0⟩ ∈
      (device.grant t.byteSize).allocations := List.mem_cons_self
  obtain ⟨device', hw⟩ : ∃ device', (device.grant t.byteSize).write device.nextPointer t.bytes =
      .ok device' :=
    Device.exists_write_eq_ok ((Device.contents?_eq_some_iff hgrant).mpr hmem) (by simp)
  refine ⟨device', ?_, hgrant.of_sameShape (hgrant.sameShape_write hw), ?_, ?_⟩
  · simp [Staged.push, Buffer.upload, hsize, hw]
  · have hold : device.allocations.map (fun a =>
        if a.pointer = device.nextPointer then { a with bytes := t.bytes } else a) =
        device.allocations := by
      refine (List.map_congr_left (g := id) fun a ha => if_neg fun heq => ?_).trans (List.map_id _)
      exact hd.nextPointer_notMem (heq ▸ List.mem_map_of_mem ha)
    obtain ⟨-, rfl⟩ := Device.write_eq_ok hw
    simp only [Device.grant, List.map_cons, if_true]
    exact congrArg _ hold
  · obtain ⟨-, rfl⟩ := Device.write_eq_ok hw
    rfl

/-- A tensor for which there is memory is in it after the push. -/
theorem Staged.push_of_allocate {t : Tensor} {device device' : Device} {staged : Staged}
    (hd : device.Sound) (h : Staged.allocate t device = .ok (staged, device')) :
    staged.host = t ∧ staged.buffer.isSome = true ∧ staged.Fits ∧
      ∃ device'', staged.push device' = .ok device'' ∧ device''.Sound ∧
        device''.allocations = staged.allocation?.toList ++ device.allocations ∧
        device''.pending = device.pending := by
  rcases Staged.allocate_eq_ok h with ⟨hsize, rfl, rfl⟩ | ⟨hsize, rfl, rfl⟩
  · refine ⟨rfl, rfl, ?_, device', ?_, hd, rfl, rfl⟩
    · rintro _ ⟨⟩
      exact ⟨hsize.symm, by simp⟩
    · simp [Staged.push, Buffer.upload, hsize]
  · have hne := device.nextPointer_ne_null
    obtain ⟨device'', hpush, hsound, hallocations, hpending⟩ := Staged.push_grant hd hsize
    refine ⟨rfl, rfl, ?_, device'', hpush, hsound, ?_, hpending⟩
    · rintro _ ⟨⟩
      exact ⟨rfl, by simp [hne, hsize]⟩
    · rw [hallocations, Staged.allocation?, Staged.pointer_mk, if_neg hne]
      rfl

/-! ### Actions that place operands -/

/-- With `done` placed, the action ends with some operands placed, those that `post` relates to its
value if it does not fail. -/
def Places {α : Type} (device : Device) (done : List Staged) (action : Acquire α)
    (post : α → List Staged → Prop) : Prop :=
  ∀ lease, Holds device done lease → ∃ done',
    Holds device done' (action lease).2 ∧ ∀ x, (action lease).1 = .ok x → post x done'

/-- A bind runs the second action where the first one has ended, if it has not failed. -/
theorem Acquire.bind_apply {α β : Type} (action : Acquire α) (next : α → Acquire β) (lease : Lease) :
    (action >>= next) lease = match action lease with
      | (.ok x, lease') => next x lease'
      | (.error e, lease') => (.error e, lease') := by
  show (ExceptT.bindCont next (action lease).1) (action lease).2 = _
  cases action lease with
  | mk r lease' => cases r <;> rfl

namespace Places

variable {α β : Type} {device : Device} {done : List Staged}
  {post : α → List Staged → Prop} {post' : β → List Staged → Prop}

theorem pure {x : α} (h : post x done) : Places device done (Pure.pure x) post :=
  fun lease hl => ⟨done, hl, fun y hy => by cases hy; exact h⟩

theorem bind {action : Acquire α} {next : α → Acquire β} (ha : Places device done action post)
    (hn : ∀ x done', post x done' → Places device done' (next x) post') :
    Places device done (action >>= next) post' := by
  intro lease hl
  obtain ⟨done', hl', hx⟩ := ha lease hl
  rw [Acquire.bind_apply]
  cases hr : action lease with
  | mk r lease' =>
    rw [hr] at hl' hx
    cases r with
    | error e => exact ⟨done', hl', fun y hy => by cases hy⟩
    | ok x => exact hn x done' (hx x rfl) lease' hl'

theorem mono {action : Acquire α} {post₂ : α → List Staged → Prop}
    (ha : Places device done action post) (h : ∀ x done', post x done' → post₂ x done') :
    Places device done action post₂ := fun lease hl => by
  obtain ⟨done', hl', hx⟩ := ha lease hl
  exact ⟨done', hl', fun x hr => h x done' (hx x hr)⟩

theorem ofExcept (x : Except Failure α) :
    Places device done (Acquire.ofExcept x) fun y done' => done' = done ∧ x = .ok y :=
  fun _ hl => ⟨done, hl, fun _ h => ⟨rfl, h⟩⟩

/-- **Placing a tensor.**  It is staged with the given host copy, in device memory if it is to be. -/
theorem place (p : Placement) : Places device done (Acquire.place p) fun staged done' =>
    done' = done ++ [staged] ∧ staged.host = p.tensor ∧ staged.buffer.isSome = p.onDevice := by
  intro lease hl
  obtain ⟨t, onDevice⟩ := p
  cases onDevice with
  | false =>
    refine ⟨done ++ [.hostOnly t], hl.append hl.sound rfl ?_ rfl ?_, ?_⟩
    · intro p hp
      show p ∈ lease.held ↔ p = .null ∨ p ∈ lease.held
      simp [hp]
    · intro buffer hb
      cases hb
    · rintro _ ⟨⟩
      exact ⟨rfl, rfl, rfl⟩
  | true =>
    rw [show Acquire.place ⟨t, true⟩ = Acquire.hold t >>= Acquire.push from rfl,
      Acquire.bind_apply]
    unfold Acquire.hold
    cases ha : Staged.allocate t lease.device with
    | error e => exact ⟨done, hl, fun _ hx => by cases hx⟩
    | ok r =>
      obtain ⟨staged, device'⟩ := r
      obtain ⟨hhost, hbuffer, hfits, device'', hpush, hsound, hallocations, hpending⟩ :=
        Staged.push_of_allocate hl.sound ha
      simp only [Acquire.push, hpush]
      refine ⟨done ++ [staged], hl.append hsound hallocations ?_ hpending hfits, ?_⟩
      · exact fun p _ => List.mem_cons
      · rintro _ ⟨⟩
        exact ⟨rfl, hhost, hbuffer⟩

end Places

/-! ### Running an action -/

section Run
variable {α : Type} {action : Acquire α} {device device' : Device}
  {post : α → List Staged → Prop}

/-- **An action that fails leaves the allocations from before.** -/
theorem allocations_run_of_error (ha : Places device [] action post) (hd : device.Sound)
    {e : Failure} (h : action.run device = (.error e, device')) :
    device'.Sound ∧ device'.allocations = device.allocations := by
  obtain ⟨done, hl, -⟩ := ha ⟨device, []⟩ (Holds.start hd)
  unfold Acquire.run ExceptT.run at h
  cases hr : action ⟨device, []⟩ with
  | mk r lease =>
    rw [hr] at h hl
    cases r with
    | ok x => cases h
    | error e' =>
      cases h
      refine ⟨hl.sound.releaseAll _, ?_⟩
      rw [Device.allocations_releaseAll]
      exact hl.others_eq hd hl.held_iff

/-- An action that succeeds holds what it has placed. -/
theorem holds_run_of_ok (ha : Places device [] action post) (hd : device.Sound) {x : α}
    (h : action.run device = (.ok x, device')) :
    ∃ done held, Holds device done ⟨device', held⟩ ∧ post x done := by
  obtain ⟨done, hl, hx⟩ := ha ⟨device, []⟩ (Holds.start hd)
  unfold Acquire.run ExceptT.run at h
  cases hr : action ⟨device, []⟩ with
  | mk r lease =>
    rw [hr] at h hl hx
    cases r with
    | error e => cases h
    | ok y =>
      cases h
      exact ⟨done, lease.held, hl, hx x rfl⟩

end Run

end FusedGemm
