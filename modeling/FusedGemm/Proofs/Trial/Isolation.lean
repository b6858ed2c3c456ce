import FusedGemm.Proofs.Trial.ActiveOutputs
import FusedGemm.Proofs.Trial.Agreement
import FusedGemm.Proofs.Trial.SameHosts
import FusedGemm.Proofs.Trial.StageOrder

/-!
# Rounds do not see each other

What an emulated kernel computes for a case follows from the host copies (`EmulatedKernel.results`),
and it is what is copied back (`exists_computed_of_emulation`).  So a round comes to the same on twin
devices, whatever else is live there and whatever launch the kernel has taken last (`run_twins`).

After a round as much is in use as before, so that the rounds of a sequence start from twins of an
empty device: each comes to what it comes to alone (`runAll_isolated`).
-/

namespace FusedGemm

/-! ### What a kernel computes for a case -/

theorem Outputs.related_of_get? {α β : Type} {R : α → β → Prop} {o : Outputs α} {o' : Outputs β}
    (h : ∀ channel, Option.Rel R (o.get? channel) (o'.get? channel)) : Outputs.Related R o o' where
  d := by
    cases h .d with
    | some hd => exact hd
  absMaxD := h .absMaxD
  biasGradient := h .biasGradient
  aux := h .aux
  absMaxAux := h .absMaxAux

namespace EmulatedKernel

variable {kernel : EmulatedKernel} {launch : Launch}

/-- What the kernel computes for a case, from its host copies. -/
def results (kernel : EmulatedKernel) (case : Case) : Outputs Tensor :=
  kernel.outputs ⟨case.fusedProduct, case.start (kernel.has .keepsMaxima)⟩

theorem supports_of_fits (hfits : fits launch = true) :
    kernel.supports launch = if kernel.has .refuses then .notSupported else .success := by
  unfold supports
  rw [hfits]
  rfl

end EmulatedKernel

/-- The outputs of the case have been replaced by what the kernel computes for it. -/
structure Case.ComputedBy (kernel : EmulatedKernel) (case pulled : Case) : Prop where
  case_eq : pulled =
    { case with operands := { case.operands with outputs := pulled.operands.outputs } }
  outputs : ∀ channel, Option.Rel
    (fun staged staged' => staged'.buffer.isSome = staged.buffer.isSome ∧
      ∃ t, (kernel.results case).get? channel = some t ∧
        staged'.host = staged.host.withBytes t.bytes)
    (case.operands.outputs.get? channel) (pulled.operands.outputs.get? channel)

namespace Case.SameHosts

variable {case case' pulled pulled' : Case}

theorem start_eq (h : case.SameHosts case') (stale : Bool) :
    case'.start stale = case.start stale := by
  unfold start
  rw [h.outputs_eq, h.reference_eq]

theorem results_eq (h : case.SameHosts case') (kernel : EmulatedKernel) :
    kernel.results case' = kernel.results case := by
  unfold EmulatedKernel.results
  rw [h.fusedProduct_eq, h.start_eq]

/-- Of the same host copies a kernel makes the same host copies. -/
theorem computedBy (h : case.SameHosts case') {kernel : EmulatedKernel}
    (hc : case.ComputedBy kernel pulled) (hc' : case'.ComputedBy kernel pulled') :
    pulled.SameHosts pulled' := by
  have houtputs : Outputs.Related Staged.SameHost pulled.operands.outputs
      pulled'.operands.outputs := by
    refine Outputs.related_of_get? fun channel => ?_
    have hsame := h.operands.outputs.get? channel
    have hout := hc.outputs channel
    have hout' := hc'.outputs channel
    rw [h.results_eq] at hout'
    cases hs : case.operands.outputs.get? channel with
    | none =>
      rw [hs] at hsame hout
      rw [eq_none_of_rel hsame] at hout'
      rw [eq_none_of_rel hout, eq_none_of_rel hout']
      exact .none
    | some staged =>
      rw [hs] at hsame hout
      obtain ⟨staged', hs', hhost⟩ := exists_of_rel_some hsame
      rw [hs'] at hout'
      obtain ⟨computed, hcomputed, hbuffer, t, ht, hbytes⟩ := exists_of_rel_some hout
      obtain ⟨computed', hcomputed', hbuffer', t', ht', hbytes'⟩ := exists_of_rel_some hout'
      obtain rfl : t = t' := Option.some.inj (ht.symm.trans ht')
      rw [hcomputed, hcomputed']
      refine .some ⟨?_, ?_⟩
      · rw [hbytes, hbytes', hhost.host_eq]
      · rw [hbuffer, hbuffer', hhost.isSome_eq]
  have hoperands := h.operands
  rw [hc.case_eq, hc'.case_eq]
  exact { h with operands := { hoperands with outputs := houtputs } }

end Case.SameHosts

/-! ### One round on twins -/

namespace Round

variable {config : Config} {r : Round} {kernel : EmulatedKernel}
  {base device device' placed placed' scratch : Device} {case case' : Case}
  {launch launch' : Launch} {buffer : Buffer}

/-- **What is copied back is what the kernel computes from the host copies.** -/
theorem exists_computed_of_emulation
    (hm : Materialized config r.problem r.alpha r.beta device case placed)
    (harg : case.arguments = .ok launch)
    (hb : Buffer.allocate kernel.workspace placed = .ok (buffer, scratch))
    (hpending : placed.pending = none) :
    (kernel.execute launch scratch).1 = none ∧ ∃ pulled, case.ComputedBy kernel pulled ∧
      (collect case (kernel.execute launch scratch).2).1 = .ok pulled.outcome := by
  have hscratch : scratch.Sound := hm.holds.sound.buffer_allocate hb
  obtain ⟨hnone, hleft⟩ := hm.execute_start (hm.resident.buffer_allocate hm.holds.sound hb)
    hscratch harg kernel
  refine ⟨hnone, ?_⟩
  have hsync : (kernel.execute launch scratch).2.synchronize.2.Sound :=
    (hscratch.of_sameShape (EmulatedKernel.sameShape_execute hscratch)).of_sameShape
      (Device.sameShape_synchronize _)
  have hnopending : (kernel.execute launch scratch).2.pending = none := by
    rw [EmulatedKernel.pending_execute, Device.pending_buffer_allocate hb, hpending]
  obtain ⟨pulled, hpull⟩ : ∃ pulled, case.pullOutputs
      (kernel.execute launch scratch).2.synchronize.2 = (none, pulled) := by
    refine Case.exists_pullOutputs fun channel staged hs => ?_
    obtain ⟨expected, -, halike, hcontents⟩ := hleft channel staged hs
    refine Staged.exists_pull (hm.output hs).2.2 fun hne => ⟨_, hcontents hne, ?_⟩
    rw [Tensor.length_bytes, (kernel.alike_written channel expected).byteSize_eq,
      halike.byteSize_eq]
  refine ⟨pulled, ⟨(Case.pullOutputs_eq_ok hpull).1, fun channel => ?_⟩, ?_⟩
  · have hrel := (Case.pullOutputs_eq_ok hpull).2 channel
    cases hs : case.operands.outputs.get? channel with
    | none =>
      rw [hs] at hrel
      rw [eq_none_of_rel hrel]
      exact .none
    | some staged =>
      rw [hs] at hrel
      obtain ⟨staged', hs', hpull'⟩ := exists_of_rel_some hrel
      obtain ⟨expected, hexpected, halike, hcontents⟩ := hleft channel staged hs
      have hbytes := contents_of_output hm hsync hs
        (halike.trans (kernel.alike_written channel expected)) hcontents
      rw [hs']
      refine .some ⟨?_, kernel.written channel expected, ?_, ?_⟩
      · rw [(hm.pulledFrom hsync hs hpull').buffer_eq]
      · rw [EmulatedKernel.results, EmulatedKernel.get?_outputs, hexpected]
        rfl
      · rw [(Staged.pull_eq_ok hpull' hsync (hm.output hs).2.1 (hm.output hs).2.2).1, hbytes]
  · rw [collect_of_not_pending hnopending, hpull]

section Attempt
variable (hsupports : (emulation.supports kernel launch).isSuccess = true)
  (hb : Buffer.allocate kernel.workspace placed = .ok (buffer, scratch))
  (hown : kernel.ownDevice = none)
include hsupports hb hown

theorem attempt_of_failsRun (hfails : kernel.has .failsRun = true) :
    (attempt emulation case launch kernel placed).1 = .ok (.kernelFailed .run .internalError) := by
  have hrun := EmulatedKernel.run_of_launch hown launch scratch
  rw [if_pos hfails] at hrun
  rw [attempt_of_allocate_ok hsupports hb,
    launchWith_of_failed (prepare_emulation hb launch) hrun (by decide)]

theorem attempt_of_execute (hfails : kernel.has .failsRun = false)
    (hnone : (kernel.execute launch scratch).1 = none) :
    (attempt emulation case launch kernel placed).1 =
      (collect case (kernel.execute launch scratch).2).1 := by
  have hrun := EmulatedKernel.run_of_launch hown launch scratch
  rw [hfails, if_neg Bool.false_ne_true, hnone] at hrun
  rw [attempt_of_allocate_ok hsupports hb,
    launchWith_of_ran (prepare_emulation hb launch) hrun]

end Attempt

/-- **A round comes to the same on twins**, whatever launch the kernel has taken last. -/
theorem run_twins (hown : kernel.ownDevice = none) (taken : Option Launch)
    (ht : base.Twins device device') (hpending : base.pending = none) :
    (run emulation config r { kernel with launch := taken } device').1 =
      (run emulation config r kernel device).1 := by
  rcases Case.setUp_twins config r.problem r.alpha r.beta ht with
    ⟨case, case', placed, placed', hset, hset', hsame, htwins⟩ |
    ⟨e, after, after', -, hset, hset', -⟩
  swap
  · rw [run_of_setUp_error hset, run_of_setUp_error hset']
  have hm := materialized_of_setUp ht.sound hset
  have hm' := materialized_of_setUp ht.sound' hset'
  rw [run_of_setUp_ok hset, run_of_setUp_ok hset']
  by_cases hrows : config.Rowless r.problem
  · rw [runCase_of_arguments_error (hm.arguments_of_rowless hrows),
      runCase_of_arguments_error (hm'.arguments_of_rowless hrows)]
  obtain ⟨launch, harg⟩ := hm.exists_arguments hrows
  obtain ⟨launch', harg'⟩ := hm'.exists_arguments hrows
  rw [runCase_of_arguments_ok harg, runCase_of_arguments_ok harg']
  have hsupports : emulation.supports kernel launch =
      if kernel.has .refuses then .notSupported else .success :=
    EmulatedKernel.supports_of_fits (hm.fits harg)
  have hsupports' : emulation.supports { kernel with launch := taken } launch' =
      if kernel.has .refuses then .notSupported else .success :=
    EmulatedKernel.supports_of_fits (hm'.fits harg')
  by_cases hrefuses : kernel.has .refuses = true
  · rw [if_pos hrefuses] at hsupports hsupports'
    have hfails : (emulation.supports kernel launch).isSuccess = false := by
      rw [hsupports]
      rfl
    have hfails' : (emulation.supports { kernel with launch := taken } launch').isSuccess =
        false := by
      rw [hsupports']
      rfl
    rw [attempt_of_unsupported hfails, attempt_of_unsupported hfails', hsupports, hsupports']
  rw [if_neg hrefuses] at hsupports hsupports'
  have hsuccess : (emulation.supports kernel launch).isSuccess = true := by rw [hsupports]; rfl
  have hsuccess' : (emulation.supports { kernel with launch := taken } launch').isSuccess =
      true := by
    rw [hsupports']
    rfl
  rcases htwins.buffer_allocate kernel.workspace with
    ⟨buffer, buffer', scratch, scratch', hb, hb', -⟩ | ⟨e, -, hb, hb'⟩
  swap
  · rw [attempt_of_allocate_error hsuccess hb, attempt_of_allocate_error hsuccess' hb']
  by_cases hfails : kernel.has .failsRun = true
  · rw [attempt_of_failsRun hsuccess hb hown hfails, attempt_of_failsRun hsuccess' hb' hown hfails]
  rw [Bool.not_eq_true] at hfails
  obtain ⟨hnone, pulled, hcomputed, hcollect⟩ :=
    exists_computed_of_emulation hm harg hb (htwins.pending_eq.trans hpending)
  have hb'' : Buffer.allocate ({ kernel with launch := taken } : EmulatedKernel).workspace placed' =
      .ok (buffer', scratch') := hb'
  obtain ⟨hnone', pulled', hcomputed', hcollect'⟩ :=
    exists_computed_of_emulation hm' harg' hb'' (htwins.pending_eq'.trans hpending)
  have hpulled : pulled.SameHosts pulled' :=
    hsame.computedBy hcomputed ⟨hcomputed'.case_eq, hcomputed'.outputs⟩
  rw [attempt_of_execute hsuccess hb hown hfails hnone,
    attempt_of_execute hsuccess' hb' hown hfails hnone', hcollect, hcollect', hpulled.outcome_eq]

/-! ### From round to round -/

section Keeping
variable {σ : Type} {kernel : Kernel σ} {s : σ}

/-- What the stages of a kernel keep true of its state, a round keeps. -/
theorem state_run {P : σ → Prop}
    (hprepare : ∀ s launch workspace, P s → P (kernel.prepare s launch workspace).2)
    (hrun : ∀ s device, P s → P (kernel.run s device).2.1) (config : Config) (r : Round)
    (device : Device) (hs : P s) : P (run kernel config r s device).2.1 := by
  cases hset : Case.setUp config r.problem r.alpha r.beta device with
  | mk made placed =>
    cases made with
    | error e =>
      rw [run_of_setUp_error hset]
      exact hs
    | ok case =>
      rw [run_of_setUp_ok hset]
      cases harg : case.arguments with
      | error e =>
        rw [runCase_of_arguments_error harg]
        exact hs
      | ok launch =>
        rw [runCase_of_arguments_ok harg]
        cases hsupports : (kernel.supports s launch).isSuccess with
        | false =>
          rw [attempt_of_unsupported hsupports]
          exact hs
        | true =>
          cases hb : Buffer.allocate (kernel.scratchSize s launch) placed with
          | error e =>
            rw [attempt_of_allocate_error hsupports hb]
            exact hs
          | ok granted =>
            have hprepared := hprepare s launch granted.1.pointer hs
            rw [attempt_of_allocate_ok hsupports hb, launchWith_eq]
            dsimp only
            split_ifs
            · exact hprepared
            · exact hrun _ _ hprepared
            · exact hrun _ _ hprepared

theorem capacity_releaseAll (device : Device) (ps : List Pointer) :
    (device.releaseAll ps).capacity = device.capacity :=
  ((Device.SameSettings.mk rfl rfl : device.SameSettings device).releaseAll ps).capacity_eq

/-- A kernel that keeps the shape of device memory leaves the device its capacity. -/
theorem capacity_run (hk : kernel.KeepsShape) (hd : device.Sound) :
    (run kernel config r s device).2.2.capacity = device.capacity := by
  rcases run_device kernel config r s device with ⟨e, hset⟩ | ⟨case, placed, hset, heq⟩
  · exact ((Case.setUp_settings hd).2 _ _ hset).2.capacity_eq
  have hplaced : placed.Sound := (materialized_of_setUp hd hset).holds.sound
  have hcase : (runCase kernel case s placed).2.2.capacity = placed.capacity := by
    cases harg : case.arguments with
    | error e => rw [runCase_of_arguments_error harg]
    | ok launch =>
      rw [runCase_of_arguments_ok harg]
      rcases attempt_device kernel case launch s placed with h | ⟨buffer, scratch, hb, h⟩
      · rw [h]
      · rw [h]
        exact (capacity_releaseAll _ [buffer.pointer]).trans
          ((sameShape_launchWith hk (hplaced.buffer_allocate hb)).capacity_eq.trans
            (Device.capacity_buffer_allocate hb))
  rw [heq, Case.release, capacity_releaseAll, hcase]
  exact ((Case.setUp_settings hd).1 _ _ hset).capacity_eq

end Keeping

theorem leavesPending_emulation : emulation.LeavesPending where
  prepareOn _ _ _ _ := rfl
  run kernel device := by
    rcases kernel.run_device device with h | ⟨launch, -, h⟩
    · exact congrArg Device.pending h
    · exact (congrArg Device.pending h).trans (kernel.pending_execute launch device)

/-- After a round the kernel is the same but for the launch that it has taken. -/
theorem exists_taken (hown : kernel.ownDevice = none) (config : Config) (r : Round)
    (device : Device) :
    ∃ taken, (run emulation config r kernel device).2.1 = { kernel with launch := taken } := by
  refine state_run (P := fun s : EmulatedKernel => ∃ taken, s = { kernel with launch := taken })
    ?_ ?_ config r device ⟨kernel.launch, rfl⟩
  · rintro _ launch workspace ⟨taken, rfl⟩
    show ∃ taken', (EmulatedKernel.prepare _ launch workspace).2 = _
    unfold EmulatedKernel.prepare
    split_ifs
    · exact ⟨taken, rfl⟩
    · exact ⟨some launch, rfl⟩
  · rintro _ device ⟨taken, rfl⟩
    cases taken with
    | none => exact ⟨none, rfl⟩
    | some launch =>
      refine ⟨some launch, ?_⟩
      show (EmulatedKernel.run _ device).2.1 = _
      rw [EmulatedKernel.run_of_launch hown]
      split_ifs <;> rfl

/-- After a round the device is a twin of what it was. -/
theorem twins_run (config : Config) (r : Round) (kernel : EmulatedKernel)
    (ht : base.Twins device device') (hpending : base.pending = none) :
    base.Twins device (run emulation config r kernel device').2.2 := by
  obtain ⟨hsound, hshapes⟩ : (run emulation config r kernel device').2.2.Sound ∧
      (run emulation config r kernel device').2.2.shapes = device'.shapes :=
    shapes_run emulation_keepsShape ht.sound'
  obtain ⟨calls, result, kernel', after, hcourse, hrun, -⟩ :=
    exists_course emulation config r kernel [] device'
  have hquiet : after.pending = none := by
    rcases hcourse.pending leavesPending_emulation ht.sound' with ⟨-, -, -, h⟩ | ⟨-, h⟩
    · exact h
    · exact h.trans (ht.pending_eq'.trans hpending)
  have hcapacity : (run emulation config r kernel device').2.2.capacity = device'.capacity :=
    capacity_run emulation_keepsShape ht.sound'
  have hcounts := (ht.sound'.sameCounts hsound hshapes).1
  rw [hrun] at hsound hcapacity hcounts ⊢
  exact ⟨ht.sound, hsound, ht.capacity_eq, hcapacity.trans ht.capacity_eq', ht.pending_eq,
    hquiet.trans hpending.symm, hcounts.trans ht.allocatedBytes_eq⟩

/-- What a round comes to by itself, with a fresh kernel on a fresh device. -/
def alone (config : Config) (faults : List KernelFault) (workspace : Nat) (capacity : Option Nat)
    (r : Round) : Except Failure Outcome :=
  (run emulation config r { faults := faults, workspace := workspace } { capacity := capacity }).1

/-- Whatever has been run before, each round comes to what it comes to by itself. -/
theorem map_runAll_alone (config : Config) {faults : List KernelFault} {workspace : Nat}
    {capacity : Option Nat} (rounds : List Round) (taken : Option Launch)
    (ht : ({ capacity := capacity } : Device).Twins { capacity := capacity } device) :
    (runAll emulation config rounds
        { faults := faults, workspace := workspace, launch := taken } device).map Prod.fst =
      rounds.map (alone config faults workspace capacity) := by
  induction rounds generalizing taken device with
  | nil => rfl
  | cons r rest ih =>
    let fresh : EmulatedKernel := { faults := faults, workspace := workspace }
    have hfirst : (run emulation config r { fresh with launch := taken } device).1 =
        alone config faults workspace capacity r := run_twins rfl taken ht rfl
    have htwins := twins_run config r { fresh with launch := taken } ht rfl
    obtain ⟨taken', hstate⟩ : ∃ taken', (run emulation config r { fresh with launch := taken }
        device).2.1 = { fresh with launch := taken' } := exists_taken rfl config r device
    rw [runAll, List.map_cons, List.map_cons]
    refine congrArg₂ List.cons hfirst ?_
    rw [hstate]
    exact ih taken' htwins

/-- **Rounds do not see each other.**  A sequence of rounds is run with one kernel, whatever its
faults are, on one empty device, whatever that has granted before.  Each round comes to what it comes
to by itself, with a fresh kernel on a fresh device.  So the order of the rounds does not matter, nor
do those that went before. -/
theorem runAll_isolated (config : Config) (faults : List KernelFault) (workspace : Nat)
    (capacity : Option Nat) (granted : Nat) (taken : Option Launch) (rounds : List Round) :
    let results (rounds : List Round) : List (Except Failure Outcome) :=
      (runAll emulation config rounds
        { faults := faults, workspace := workspace, launch := taken }
        { capacity := capacity, totalAllocations := granted }).map Prod.fst
    results rounds = rounds.map (alone config faults workspace capacity) ∧
    (∀ rounds', rounds.Perm rounds' →
      (rounds.zip (results rounds)).Perm (rounds'.zip (results rounds'))) ∧
    ∀ earlier, results (earlier ++ rounds) = results earlier ++ results rounds := by
  intro results
  have hempty : ({ capacity := capacity, totalAllocations := granted } : Device).Sound :=
    ⟨rfl, List.nodup_nil, by simp [Device.pointers]⟩
  have halone : ∀ rounds : List Round,
      results rounds = rounds.map (alone config faults workspace capacity) := fun rounds => map_runAll_alone config rounds taken
      ⟨Device.sound_empty capacity, hempty, rfl, rfl, rfl, rfl, rfl⟩
  have hzip : ∀ rounds : List Round, rounds.zip (results rounds) =
      rounds.map fun r => (r, alone config faults workspace capacity r) := by
    intro rounds
    rw [halone, List.map_prod_left_eq_zip]
  refine ⟨halone rounds, fun rounds' hperm => ?_, fun earlier => ?_⟩
  · rw [hzip, hzip]
    exact hperm.map _
  · rw [halone, halone, halone, List.map_append]

end Round

end FusedGemm
