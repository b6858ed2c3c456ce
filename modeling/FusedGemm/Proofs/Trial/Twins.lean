import FusedGemm.Proofs.Trial.Admission
import FusedGemm.Proofs.Trial.Materialization

/-!
# Setting up on twin devices

Two devices are *twins* if as many bytes are in use on both and both have the capacity and the
pending error of a third one, whatever is allocated on them and wherever.  An action *matches* if on
twins it leaves twins and its results agree: both are values that are related, or both are the same
failure, which is not a fault of the device (`Matches`).  Placing a tensor matches
(`Matches.place`), and so does one action after another (`Matches.bind`).

So a case is set up on a device if and only if it is set up on its twin, and the two cases have the
same host copies in the same places (`setUp_twins`).
-/

namespace FusedGemm

/-! ### Twins -/

/-- The failure is not a fault of the device. -/
def Failure.Mild (e : Failure) : Prop := ∀ reason, e ≠ .device (.fault reason)

namespace Device

/-- As many bytes are in use on both devices, which have the capacity and the pending error of
`base`. -/
structure Twins (base device device' : Device) : Prop where
  sound : device.Sound
  sound' : device'.Sound
  capacity_eq : device.capacity = base.capacity
  capacity_eq' : device'.capacity = base.capacity
  pending_eq : device.pending = base.pending
  pending_eq' : device'.pending = base.pending
  allocatedBytes_eq : device'.allocatedBytes = device.allocatedBytes

namespace Twins

variable {base device device' after after' : Device}

theorem refl (hd : device.Sound) : Twins device device device := ⟨hd, hd, rfl, rfl, rfl, rfl, rfl⟩

theorem hasRoom_iff (h : Twins base device device') (n : Nat) :
    device'.HasRoom n ↔ device.HasRoom n := by
  unfold HasRoom available?
  rw [h.capacity_eq, h.capacity_eq', h.allocatedBytes_eq]

theorem of_sameShape (h : Twins base device device') (hs : device.SameShape after)
    (hs' : device'.SameShape after') (hp : after.pending = device.pending)
    (hp' : after'.pending = device'.pending) : Twins base after after' where
  sound := h.sound.of_sameShape hs
  sound' := h.sound'.of_sameShape hs'
  capacity_eq := hs.capacity_eq.trans h.capacity_eq
  capacity_eq' := hs'.capacity_eq.trans h.capacity_eq'
  pending_eq := hp.trans h.pending_eq
  pending_eq' := hp'.trans h.pending_eq'
  allocatedBytes_eq := by
    rw [hs.allocatedBytes_eq, hs'.allocatedBytes_eq, h.allocatedBytes_eq]

theorem grant (h : Twins base device device') (n : Nat) :
    Twins base (device.grant n) (device'.grant n) where
  sound := h.sound.grant n
  sound' := h.sound'.grant n
  capacity_eq := h.capacity_eq
  capacity_eq' := h.capacity_eq'
  pending_eq := h.pending_eq
  pending_eq' := h.pending_eq'
  allocatedBytes_eq := congrArg (· + n) h.allocatedBytes_eq

/-- Both grant a buffer, or both have as little memory left. -/
theorem buffer_allocate (h : Twins base device device') (n : Nat) :
    (∃ buffer buffer' after after', Buffer.allocate n device = .ok (buffer, after) ∧
      Buffer.allocate n device' = .ok (buffer', after') ∧ Twins base after after') ∨
    ∃ e, (Failure.device e).Mild ∧ Buffer.allocate n device = .error e ∧
      Buffer.allocate n device' = .error e := by
  unfold Buffer.allocate
  by_cases hn : n = 0
  · rw [if_pos hn, if_pos hn]
    exact Or.inl ⟨_, _, _, _, rfl, rfl, h⟩
  · rw [if_neg hn, if_neg hn]
    by_cases hroom : device.HasRoom n
    · rw [allocate_of_hasRoom hroom, allocate_of_hasRoom ((h.hasRoom_iff n).mpr hroom)]
      exact Or.inl ⟨_, _, _, _, rfl, rfl, h.grant n⟩
    · have havailable : device'.available? = device.available? := by
        rw [available?, available?, h.capacity_eq, h.capacity_eq', h.allocatedBytes_eq]
      obtain ⟨available, ha⟩ := allocate_of_not_hasRoom hroom
      have ha' : device'.allocate n = .error (.outOfMemory n available) := by
        unfold allocate at ha ⊢
        rw [havailable]
        cases hav : device.available? with
        | none => rw [hav] at ha; cases ha
        | some m =>
          rw [hav] at ha
          dsimp only at ha ⊢
          split_ifs at ha ⊢
          cases ha
          rfl
      rw [ha, ha']
      exact Or.inr ⟨_, by simp [Failure.Mild], rfl, rfl⟩

end Twins

end Device

/-! ### Actions on twins -/

/-- Both results are values that are related, or both are the same failure. -/
inductive ResultRel {α β : Type} (R : α → β → Prop) : Except Failure α → Except Failure β → Prop
  | ok {x : α} {y : β} : R x y → ResultRel R (.ok x) (.ok y)
  | error {e : Failure} : e.Mild → ResultRel R (.error e) (.error e)

/-- On twins the actions leave twins, and their results agree. -/
def Matches {α β : Type} (base : Device) (R : α → β → Prop) (action : Acquire α)
    (action' : Acquire β) : Prop :=
  ∀ lease lease', base.Twins lease.device lease'.device →
    base.Twins (action lease).2.device (action' lease').2.device ∧
      ResultRel R (action lease).1 (action' lease').1

/-- The operands have the same host copy, and both are in device memory or neither is. -/
structure Staged.SameHost (staged staged' : Staged) : Prop where
  host_eq : staged'.host = staged.host
  isSome_eq : staged'.buffer.isSome = staged.buffer.isSome

namespace Matches

variable {α α' β β' : Type} {base : Device} {R : α → α' → Prop} {S : β → β' → Prop}

theorem pure {x : α} {y : α'} (h : R x y) : Matches base R (Pure.pure x) (Pure.pure y) :=
  fun _ _ ht => ⟨ht, .ok h⟩

theorem bind {action : Acquire α} {action' : Acquire α'} {next : α → Acquire β}
    {next' : α' → Acquire β'} (ha : Matches base R action action')
    (hn : ∀ x y, R x y → Matches base S (next x) (next' y)) :
    Matches base S (action >>= next) (action' >>= next') := by
  intro lease lease' ht
  obtain ⟨ht', hresult⟩ := ha lease lease' ht
  rw [Acquire.bind_apply, Acquire.bind_apply]
  rcases hr : action lease with ⟨r, left⟩
  rcases hr' : action' lease' with ⟨r', left'⟩
  rw [hr, hr'] at ht' hresult
  dsimp only at ht' hresult
  cases hresult with
  | ok hR => exact hn _ _ hR left left' ht'
  | error he => exact ⟨ht', .error he⟩

/-- A value or a failure that does not depend on the device. -/
theorem ofExcept {x : Except Failure α} (h : ∀ e, x = .error e → e.Mild) :
    Matches base Eq (Acquire.ofExcept x) (Acquire.ofExcept x) := by
  intro lease lease' ht
  refine ⟨ht, ?_⟩
  show ResultRel Eq x x
  cases x with
  | ok y => exact .ok rfl
  | error e => exact .error (h e rfl)

/-- A tensor for which there is memory is copied to it, and the counts stay as they are. -/
theorem exists_push {t : Tensor} {device after : Device} {buffer : Buffer} (hd : device.Sound)
    (hb : Buffer.allocate t.byteSize device = .ok (buffer, after)) :
    Staged.allocate t device = .ok (⟨t, some buffer⟩, after) ∧
      ∃ filled, Staged.push ⟨t, some buffer⟩ after = .ok filled ∧ after.SameShape filled ∧
        filled.pending = after.pending := by
  have hallocate : Staged.allocate t device = .ok (⟨t, some buffer⟩, after) := by
    unfold Staged.allocate
    rw [hb]
    rfl
  obtain ⟨-, -, -, filled, hpush, -, -, hpending⟩ := Staged.push_of_allocate hd hallocate
  exact ⟨hallocate, filled, hpush, Staged.sameShape_push (hd.buffer_allocate hb) hpush,
    hpending.trans (Device.pending_buffer_allocate hb).symm⟩

/-- **Placing a tensor matches**: there is memory for it on both devices or on neither. -/
theorem place (p : Placement) :
    Matches base Staged.SameHost (Acquire.place p) (Acquire.place p) := by
  obtain ⟨t, onDevice⟩ := p
  cases onDevice with
  | false => exact pure ⟨rfl, rfl⟩
  | true =>
    intro lease lease' ht
    rw [show Acquire.place ⟨t, true⟩ = Acquire.hold t >>= Acquire.push from rfl,
      Acquire.bind_apply, Acquire.bind_apply]
    rcases ht.buffer_allocate t.byteSize with
      ⟨buffer, buffer', after, after', hb, hb', ht'⟩ | ⟨e, he, hb, hb'⟩
    · obtain ⟨hallocate, filled, hpush, hshape, hpending⟩ := exists_push ht.sound hb
      obtain ⟨hallocate', filled', hpush', hshape', hpending'⟩ := exists_push ht.sound' hb'
      simp only [Acquire.hold, Acquire.push, hallocate, hallocate', hpush, hpush']
      exact ⟨ht'.of_sameShape hshape hshape' hpending hpending', .ok ⟨rfl, rfl⟩⟩
    · unfold Acquire.hold Staged.allocate
      rw [hb, hb']
      exact ⟨ht, .error he⟩

/-! ### Operands -/

section Operands

variable {f : α → Acquire Staged} {Q : Staged → Staged → Prop}

theorem option_mapM {x : Option α} (h : ∀ a ∈ x.toList, Matches base Q (f a) (f a)) :
    Matches base (Option.Rel Q) (x.mapM f) (x.mapM f) := by
  cases x with
  | none => exact pure .none
  | some a => exact (h a (by simp)).bind fun _ _ hQ => pure (.some hQ)

theorem scales_mapM {s : Scales α} (h : ∀ a ∈ s.toList, Matches base Q (f a) (f a)) :
    Matches base (Scales.Related Q) (s.mapM f) (s.mapM f) := by
  unfold Scales.mapM
  refine (h s.a (by simp [Scales.toList])).bind fun a a' ha => ?_
  refine (h s.b (by simp [Scales.toList])).bind fun b b' hb => ?_
  refine (h s.c (by simp [Scales.toList])).bind fun c c' hc => ?_
  refine (h s.d (by simp [Scales.toList])).bind fun d d' hd => ?_
  cases haux : s.aux with
  | none => exact pure ⟨ha, hb, hc, hd, .none⟩
  | some x =>
    exact (h x (by simp [Scales.toList, haux])).bind fun _ _ hx => pure ⟨ha, hb, hc, hd, .some hx⟩

theorem option_scales_mapM {x : Option (Scales α)}
    (h : ∀ a ∈ (x.map Scales.toList).getD [], Matches base Q (f a) (f a)) :
    Matches base (Option.Rel (Scales.Related Q)) (x.mapM (Scales.mapM f))
      (x.mapM (Scales.mapM f)) := by
  cases x with
  | none => exact pure .none
  | some s => exact (scales_mapM h).bind fun _ _ hs => pure (.some hs)

/-- **Operands that match one by one match all together.** -/
theorem operands_mapM {o : Operands α} (h : ∀ a ∈ o.toList, Matches base Q (f a) (f a)) :
    Matches base (Operands.Related Q) (o.mapM f) (o.mapM f) := by
  have hscale : ∀ a ∈ (o.scale.map Scales.toList).getD [], Matches base Q (f a) (f a) := by
    intro a ha
    exact h a (by simp only [Operands.toList, List.mem_append, ha, or_true, true_or])
  unfold Operands.mapM
  refine (h o.a (by simp [Operands.toList])).bind fun a a' ha => ?_
  refine (h o.b (by simp [Operands.toList])).bind fun b b' hb => ?_
  refine (h o.c (by simp [Operands.toList])).bind fun c c' hc => ?_
  refine (h o.outputs.d (by simp [Operands.toList])).bind fun d d' hd => ?_
  refine (h o.alpha (by simp [Operands.toList])).bind fun alpha alpha' halpha => ?_
  refine (h o.beta (by simp [Operands.toList])).bind fun beta beta' hbeta => ?_
  refine (option_scales_mapM hscale).bind fun scale scale' hs => ?_
  refine (option_mapM fun a ha => h a (by simp_all [Operands.toList])).bind
    fun bias bias' hbias => ?_
  refine (option_mapM fun a ha => h a (by simp_all [Operands.toList])).bind
    fun biasGradient biasGradient' hbiasGradient => ?_
  refine (option_mapM fun a ha => h a (by simp_all [Operands.toList])).bind
    fun auxIn auxIn' hauxIn => ?_
  refine (option_mapM fun a ha => h a (by simp_all [Operands.toList])).bind
    fun aux aux' haux => ?_
  refine (option_mapM fun a ha => h a (by simp_all [Operands.toList])).bind
    fun absMaxD absMaxD' habsMaxD => ?_
  refine (option_mapM fun a ha => h a (by simp_all [Operands.toList])).bind
    fun absMaxAux absMaxAux' habsMaxAux => ?_
  exact pure ⟨ha, hb, hc, halpha, hbeta, hs, hbias, hauxIn,
    hd, habsMaxD, hbiasGradient, haux, habsMaxAux⟩

end Operands

end Matches

/-! ### Failures of the plan -/

/-- The value is there, or its failure is not a fault of the device. -/
def FailsMildly {α : Type} (x : Except Failure α) : Prop := ∀ e, x = .error e → e.Mild

namespace FailsMildly

variable {α β : Type}

theorem pure (x : α) : FailsMildly (Pure.pure x) := fun _ h => by cases h

theorem bind {x : Except Failure α} {f : α → Except Failure β} (hx : FailsMildly x)
    (hf : ∀ y, FailsMildly (f y)) : FailsMildly (x >>= f) := by
  cases x with
  | error e => exact fun e' h => by cases h; exact hx e rfl
  | ok y => exact hf y

theorem placement {x : Except Failure Tensor} (hx : FailsMildly x) (onDevice : Bool) :
    FailsMildly (Placement.mk <$> x <*> Pure.pure onDevice) := by
  cases x with
  | error e => exact fun e' h => by cases h; exact hx e rfl
  | ok t => exact pure _

theorem packed (name : String) (type : ElementType) (order : MatrixOrder) (e : Extent) :
    FailsMildly (Tensor.packed name type order e) := by
  unfold Tensor.packed
  cases Tensor.packed? name type order e with
  | some t => exact pure t
  | none => exact fun e h => by cases h; simp [Failure.Mild]

theorem scalarCount (config : Config) (p : Problem) : FailsMildly (config.scalarCount p) := by
  unfold Config.scalarCount
  cases (config.broadcast.length? p).filter _ with
  | some n => exact pure n
  | none => exact fun e h => by cases h; simp [Failure.Mild]

theorem alphaTensor (config : Config) (p : Problem) (x : Float) :
    FailsMildly (config.alphaTensor p x) := by
  refine (scalarCount config p).bind fun n => ?_
  dsimp only
  split_ifs <;> exact pure _

theorem betaTensor (config : Config) (p : Problem) (x : Float) :
    FailsMildly (config.betaTensor p x) := by
  refine (scalarCount config p).bind fun n => ?_
  dsimp only
  split_ifs <;> exact pure _

end FailsMildly

namespace Config

variable (config : Config) (p : Problem)

theorem failsMildly_right : FailsMildly (config.right p) :=
  (FailsMildly.packed _ _ _ _).bind fun _ => .pure _

theorem failsMildly_product : FailsMildly (config.product p) := .packed _ _ _ _

theorem failsMildly_auxOutput : FailsMildly (config.auxOutput p) := .packed _ _ _ _

theorem failsMildly_biasStorage (name : String) : FailsMildly (config.biasStorage p name) := by
  unfold biasStorage
  cases AddressSpace.mul? p.m config.typeBias.size with
  | some n => exact .pure _
  | none => exact fun e h => by cases h; simp [Failure.Mild]

theorem failsMildly_scalePlan : ∀ entry ∈ config.scalePlan.toList, FailsMildly (entry ()) := by
  intro entry hmem
  simp only [scalePlan, Scales.toList, List.mem_append, List.mem_cons, List.not_mem_nil, or_false,
    Option.mem_toList] at hmem
  rcases hmem with (rfl | rfl | rfl | rfl) | haux
  any_goals exact .pure _
  split_ifs at haux
  cases haux
  exact .pure _

theorem failsMildly_outputPlan (channel : Channel) :
    ∀ entry ∈ (config.outputPlan p).get? channel, FailsMildly (entry ()) := by
  intro entry hmem
  cases channel with
  | d =>
    cases hmem
    exact (config.failsMildly_product p).placement true
  | aux =>
    simp only [outputPlan, Outputs.get?, Option.mem_def] at hmem
    split_ifs at hmem
    cases hmem
    exact (config.failsMildly_auxOutput p).placement true
  | biasGradient =>
    simp only [outputPlan, Outputs.get?, Option.mem_def] at hmem
    split_ifs at hmem
    cases hmem
    exact ((config.failsMildly_biasStorage p _).bind fun _ => .pure _).placement true
  | absMaxD | absMaxAux =>
    simp only [outputPlan, Outputs.get?, Option.mem_def] at hmem
    split_ifs at hmem
    cases hmem
    exact .pure _

/-- A plan can ask for too much, but does not touch the device. -/
theorem failsMildly_plan (x y : Float) :
    ∀ entry ∈ (config.plan p x y).toList, FailsMildly (entry ()) := by
  have hright := config.failsMildly_right p
  have hproduct := config.failsMildly_product p
  have houtput := config.failsMildly_outputPlan p
  intro entry hmem
  simp only [Operands.toList, List.mem_append, List.mem_cons, List.not_mem_nil, or_false,
    Option.mem_toList] at hmem
  rcases hmem with ((((((((rfl | rfl | rfl | rfl | rfl | rfl) | hscale) | hbias) | hgradient) |
    hauxIn) | hauxOut) | habsMaxD) | habsMaxAux)
  · exact ((FailsMildly.packed _ _ _ _).bind fun _ => .pure _).bind
      fun _ => hright.bind fun _ => .pure _
  · exact hright.placement true
  · exact ((FailsMildly.packed _ _ _ _).bind fun _ => .pure _).bind
      fun _ => hproduct.bind fun _ => .pure _
  · exact houtput .d _ rfl
  · exact (FailsMildly.alphaTensor config p x).placement _
  · exact (FailsMildly.betaTensor config p y).placement _
  · simp only [plan] at hscale
    split_ifs at hscale
    · exact config.failsMildly_scalePlan entry hscale
    · cases hscale
  · simp only [plan] at hbias
    split_ifs at hbias
    cases hbias
    exact ((config.failsMildly_biasStorage p _).bind fun _ => .pure _).placement true
  · exact houtput .biasGradient entry hgradient
  · simp only [plan] at hauxIn
    split_ifs at hauxIn
    cases hauxIn
    exact FailsMildly.placement ((config.failsMildly_auxOutput p).bind fun _ => .pure _) true
  · exact houtput .aux entry hauxOut
  · exact houtput .absMaxD entry habsMaxD
  · exact houtput .absMaxAux entry habsMaxAux

end Config

/-! ### Setting up -/

/-- The cases have the same host copies in the same places, and all else in common. -/
structure Case.SameHosts (case case' : Case) : Prop where
  config_eq : case'.config = case.config
  problem_eq : case'.problem = case.problem
  alpha_eq : case'.alpha = case.alpha
  beta_eq : case'.beta = case.beta
  comparison_eq : case'.comparison = case.comparison
  operands : Operands.Related Staged.SameHost case.operands case'.operands
  reference_eq : case'.reference = case.reference

/-- The reference starts from what the host copies are. -/
theorem Config.referenceOutputs_eq {operands operands' : Operands Staged}
    (h : Operands.Related Staged.SameHost operands operands') :
    referenceOutputs operands' = referenceOutputs operands := by
  unfold referenceOutputs
  rw [h.c.host_eq, Outputs.map_eq_of_related (fun _ _ hs => by rw [hs.host_eq]) h.outputs]

theorem Config.matches_acquire (config : Config) (p : Problem) (x y : Float) (base : Device) :
    Matches base Case.SameHosts (config.acquire p x y) (config.acquire p x y) := by
  have hentries : ∀ entry ∈ (config.plan p x y).toList, Matches base Staged.SameHost (do
      let placement ← Acquire.ofExcept (entry ())
      Acquire.place placement) (do
      let placement ← Acquire.ofExcept (entry ())
      Acquire.place placement) := by
    intro entry hmem
    refine (Matches.ofExcept (config.failsMildly_plan p x y entry hmem)).bind ?_
    rintro placement _ rfl
    exact Matches.place placement
  have hcomparison : FailsMildly (config.comparison.mapError Failure.config) := by
    intro e he
    cases hc : config.comparison with
    | ok comparison => rw [hc] at he; cases he
    | error e' => rw [hc] at he; cases he; simp [Failure.Mild]
  refine (Matches.operands_mapM hentries).bind fun operands operands' hoperands => ?_
  refine (Matches.ofExcept hcomparison).bind ?_
  rintro comparison _ rfl
  exact Matches.pure ⟨rfl, rfl, rfl, rfl, rfl, hoperands, referenceOutputs_eq hoperands⟩

/-- Giving back changes nothing but what is live. -/
theorem Device.releaseAll_eq (device : Device) (ps : List Pointer) :
    ∃ allocations allocatedBytes, device.releaseAll ps =
      { device with allocations := allocations, allocatedBytes := allocatedBytes } := by
  unfold releaseAll
  induction ps generalizing device with
  | nil => exact ⟨_, _, rfl⟩
  | cons p ps ih =>
    obtain ⟨allocations, allocatedBytes, h⟩ := ih (device.release p)
    refine ⟨allocations, allocatedBytes, h.trans ?_⟩
    unfold release free
    cases device.contents? p <;> rfl

/-- The device has the capacity and the pending error of the other one. -/
structure Device.SameSettings (device device' : Device) : Prop where
  capacity_eq : device'.capacity = device.capacity
  pending_eq : device'.pending = device.pending

theorem Device.SameSettings.releaseAll {device device' : Device} (h : device.SameSettings device')
    (ps : List Pointer) : device.SameSettings (device'.releaseAll ps) := by
  obtain ⟨allocations, allocatedBytes, hrelease⟩ := device'.releaseAll_eq ps
  rw [hrelease]
  exact ⟨h.capacity_eq, h.pending_eq⟩

/-- **A case is set up on a device if and only if it is set up on its twin**, with the same host
copies, and else for the same reason. -/
theorem Case.setUp_twins {base device device' : Device} (config : Config) (p : Problem)
    (x y : Float) (h : base.Twins device device') :
    (∃ case case' placed placed', setUp config p x y device = (.ok case, placed) ∧
      setUp config p x y device' = (.ok case', placed') ∧ case.SameHosts case' ∧
      base.Twins placed placed') ∨
    ∃ e after after', e.Mild ∧ setUp config p x y device = (.error e, after) ∧
      setUp config p x y device' = (.error e, after') ∧ base.SameSettings after := by
  unfold setUp
  cases hv : config.validate with
  | error e =>
    exact Or.inr ⟨_, _, _, by simp [Failure.Mild], rfl, rfl, h.capacity_eq, h.pending_eq⟩
  | ok valid =>
    obtain ⟨ht, hresult⟩ := valid.matches_acquire p x y base ⟨device, []⟩ ⟨device', []⟩ h
    unfold materialize Acquire.run ExceptT.run
    dsimp only
    rcases hr : valid.acquire p x y ⟨device, []⟩ with ⟨r, lease⟩
    rcases hr' : valid.acquire p x y ⟨device', []⟩ with ⟨r', lease'⟩
    rw [hr, hr'] at ht hresult
    dsimp only at ht hresult
    cases hresult with
    | ok hsame => exact Or.inl ⟨_, _, _, _, rfl, rfl, hsame, ht⟩
    | error he =>
      exact Or.inr ⟨_, _, _, he, rfl, rfl,
        (Device.SameSettings.mk ht.capacity_eq ht.pending_eq).releaseAll _⟩

/-- Setting up keeps the capacity and the pending error, and no failure of it is a fault of the
device. -/
theorem Case.setUp_settings {config : Config} {p : Problem} {x y : Float} {device : Device}
    (hd : device.Sound) :
    (∀ case placed, setUp config p x y device = (.ok case, placed) →
      device.SameSettings placed) ∧
    ∀ e after, setUp config p x y device = (.error e, after) →
      e.Mild ∧ device.SameSettings after := by
  rcases setUp_twins config p x y (Device.Twins.refl hd) with
    ⟨case, _, placed, _, hset, -, -, ht⟩ | ⟨e, after, _, he, hset, -, hs⟩
  · rw [hset]
    refine ⟨fun case' placed' h => ?_, fun e after h => by cases h⟩
    cases h
    exact ⟨ht.capacity_eq, ht.pending_eq⟩
  · rw [hset]
    refine ⟨fun case placed h => (by cases h), fun e' after' h => ?_⟩
    cases h
    exact ⟨he, hs⟩

end FusedGemm
