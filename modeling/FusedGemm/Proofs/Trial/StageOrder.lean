import FusedGemm.Proofs.Trial.ActiveOutputs
import FusedGemm.Proofs.Trial.Dumping
import FusedGemm.Proofs.Trial.Twins

/-!
# The order of the stages

`Kernel.recorded` records the calls that a kernel gets, and `Round.turns` the rounds of a sequence.
How far one round can get is an inductive relation, `Course`, and every round of a recorded kernel
takes one (`exists_course`).  What follows for a round alone is collected in `Orderly`: each stage is
entered only after the one before has succeeded, and what comes out of the round is what the first
stage that fails says.

Over a sequence, an error that is pending on the device stays there until a round synchronizes, and
comes out of that round and of no other (`turns_orderly`).
-/

namespace FusedGemm

/-! ### Kernels that free nothing -/

/-- What was live is live, with as many bytes. -/
structure Device.Retains (device device' : Device) : Prop where
  sound : device'.Sound
  contents : ∀ p bytes, device.contents? p = some bytes →
    ∃ bytes', device'.contents? p = some bytes' ∧ bytes'.length = bytes.length

theorem Device.Retains.trans {device device' device'' : Device} (h : device.Retains device')
    (h' : device'.Retains device'') : device.Retains device'' where
  sound := h'.sound
  contents p bytes hp := by
    obtain ⟨bytes', hp', hlength⟩ := h.contents p bytes hp
    obtain ⟨bytes'', hp'', hlength'⟩ := h'.contents p bytes' hp'
    exact ⟨bytes'', hp'', hlength'.trans hlength⟩

theorem Device.SameShape.retains {device device' : Device} (h : device.SameShape device')
    (hd : device.Sound) : device.Retains device' :=
  ⟨hd.of_sameShape h, fun _ _ => h.exists_contents? hd⟩

theorem Device.Sound.retains_buffer_allocate {device device' : Device} {n : Nat} {buffer : Buffer}
    (hd : device.Sound) (h : Buffer.allocate n device = .ok (buffer, device')) :
    device.Retains device' :=
  ⟨hd.buffer_allocate h, fun _ bytes hp => ⟨bytes, hd.contents?_buffer_allocate h hp, rfl⟩⟩

theorem Device.pending_releaseAll (device : Device) (ps : List Pointer) :
    (device.releaseAll ps).pending = device.pending :=
  ((Device.SameSettings.mk rfl rfl : device.SameSettings device).releaseAll ps).pending_eq

section Kernels
variable {σ : Type}

/-- The kernel frees nothing, whatever it writes and allocates. -/
structure Kernel.Retains (kernel : Kernel σ) : Prop where
  prepareOn : ∀ s launch workspace (device : Device), device.Sound →
    device.Retains (kernel.prepareOn s launch workspace device)
  run : ∀ s (device : Device), device.Sound → device.Retains (kernel.run s device).2.2

/-- The kernel leaves it to others to wait for the device, and to make it fail. -/
structure Kernel.LeavesPending (kernel : Kernel σ) : Prop where
  prepareOn : ∀ s launch workspace (device : Device),
    (kernel.prepareOn s launch workspace device).pending = device.pending
  run : ∀ s (device : Device), (kernel.run s device).2.2.pending = device.pending

theorem Kernel.KeepsShape.retains {kernel : Kernel σ} (h : kernel.KeepsShape) :
    kernel.Retains where
  prepareOn s launch workspace _ hd := (h.prepareOn s launch workspace _ hd).retains hd
  run s _ hd := (h.run s _ hd).retains hd

/-! ### Calls -/

/-- A call of a kernel, with what it was given and what it reported. -/
inductive Call where
  | prepare (launch : Launch) (workspace : Pointer) (status : KernelStatus)
  /-- A run, with the device that it has left. -/
  | run (status : KernelStatus) (left : Device)

/-- The kernel with a record of its calls, the latest last. -/
def Kernel.recorded (kernel : Kernel σ) : Kernel (σ × List Call) where
  supports s := kernel.supports s.1
  scratchSize s := kernel.scratchSize s.1
  prepare s launch workspace :=
    let (status, s') := kernel.prepare s.1 launch workspace
    (status, s', s.2 ++ [.prepare launch workspace status])
  prepareOn s := kernel.prepareOn s.1
  run s device :=
    let (status, s', device') := kernel.run s.1 device
    (status, (s', s.2 ++ [.run status device']), device')

end Kernels

namespace Round

variable {σ : Type} {kernel : Kernel σ} {config : Config} {r : Round} {s : σ} {device : Device}

/-! ### The course of a round -/

/-- The case has been set up, the arguments are made and the kernel supports them. -/
structure Offered (kernel : Kernel σ) (config : Config) (r : Round) (s : σ) (device : Device)
    (case : Case) (placed : Device) (launch : Launch) : Prop where
  setUp : Case.setUp config r.problem r.alpha r.beta device = (.ok case, placed)
  arguments : case.arguments = .ok launch
  supports : kernel.supports s launch = .success

theorem Offered.inj {case case' : Case} {placed placed' : Device} {launch launch' : Launch}
    (h : Offered kernel config r s device case placed launch)
    (h' : Offered kernel config r s device case' placed' launch') :
    case = case' ∧ placed = placed' ∧ launch = launch' := by
  cases h.setUp.symm.trans h'.setUp
  cases h.arguments.symm.trans h'.arguments
  exact ⟨rfl, rfl, rfl⟩

/-- What a round can do: its calls, what comes out of it and the device that it leaves. -/
inductive Course (kernel : Kernel σ) (config : Config) (r : Round) (s : σ) (device : Device) :
    List Call → Except Failure Outcome → Device → Prop
  | unmade {e : Failure} {after : Device}
    (setUp : Case.setUp config r.problem r.alpha r.beta device = (.error e, after)) :
    Course kernel config r s device [] (.error e) after
  | unargued {case : Case} {placed : Device} {e : Failure}
    (setUp : Case.setUp config r.problem r.alpha r.beta device = (.ok case, placed))
    (arguments : case.arguments = .error e) :
    Course kernel config r s device [] (.error e) (case.release placed)
  | unsupported {case : Case} {placed : Device} {launch : Launch}
    (setUp : Case.setUp config r.problem r.alpha r.beta device = (.ok case, placed))
    (arguments : case.arguments = .ok launch) (supports : kernel.supports s launch ≠ .success) :
    Course kernel config r s device [] (.ok (.skipped (kernel.supports s launch)))
      (case.release placed)
  | withoutScratch {case : Case} {placed : Device} {launch : Launch} {e : DeviceError}
    (offered : Offered kernel config r s device case placed launch)
    (allocate : Buffer.allocate (kernel.scratchSize s launch) placed = .error e) :
    Course kernel config r s device [] (.error (.device e)) (case.release placed)
  | unprepared {case : Case} {placed scratch : Device} {launch : Launch} {buffer : Buffer}
    {status : KernelStatus} {s₁ : σ}
    (offered : Offered kernel config r s device case placed launch)
    (allocate : Buffer.allocate (kernel.scratchSize s launch) placed = .ok (buffer, scratch))
    (prepares : kernel.prepare s launch buffer.pointer = (status, s₁)) (fails : status ≠ .success) :
    Course kernel config r s device [.prepare launch buffer.pointer status]
      (.ok (.kernelFailed .prepare status))
      (case.release ((kernel.prepareOn s launch buffer.pointer scratch).release buffer.pointer))
  | failed {case : Case} {placed scratch left : Device} {launch : Launch} {buffer : Buffer}
    {status : KernelStatus} {s₁ s₂ : σ}
    (offered : Offered kernel config r s device case placed launch)
    (allocate : Buffer.allocate (kernel.scratchSize s launch) placed = .ok (buffer, scratch))
    (prepares : kernel.prepare s launch buffer.pointer = (.success, s₁))
    (runs : kernel.run s₁ (kernel.prepareOn s launch buffer.pointer scratch) = (status, s₂, left))
    (fails : status ≠ .success) :
    Course kernel config r s device [.prepare launch buffer.pointer .success, .run status left]
      (.ok (.kernelFailed .run status)) (case.release (left.release buffer.pointer))
  | synchronized {case : Case} {placed scratch left : Device} {launch : Launch} {buffer : Buffer}
    {s₁ s₂ : σ}
    (offered : Offered kernel config r s device case placed launch)
    (allocate : Buffer.allocate (kernel.scratchSize s launch) placed = .ok (buffer, scratch))
    (prepares : kernel.prepare s launch buffer.pointer = (.success, s₁))
    (runs : kernel.run s₁ (kernel.prepareOn s launch buffer.pointer scratch) =
      (.success, s₂, left)) :
    Course kernel config r s device [.prepare launch buffer.pointer .success, .run .success left]
      (collect case left).1 (case.release (left.synchronize.2.release buffer.pointer))

/-- **Every round takes one of these courses**, whether it is recorded or not. -/
theorem exists_course (kernel : Kernel σ) (config : Config) (r : Round) (s : σ) (log : List Call)
    (device : Device) :
    ∃ calls result s' after, Course kernel config r s device calls result after ∧
      run kernel config r s device = (result, s', after) ∧
      run kernel.recorded config r (s, log) device = (result, (s', log ++ calls), after) := by
  have hsilent : (s, log ++ []) = (s, log) := by rw [List.append_nil]
  rcases hset : Case.setUp config r.problem r.alpha r.beta device with ⟨e | case, placed⟩
  · refine ⟨[], _, _, _, .unmade hset, run_of_setUp_error hset, ?_⟩
    rw [hsilent]
    exact run_of_setUp_error hset
  cases harg : case.arguments with
  | error e =>
    refine ⟨[], _, s, _, .unargued hset harg, ?_, ?_⟩
    · rw [run_of_setUp_ok hset, runCase_of_arguments_error harg]
    · rw [hsilent, run_of_setUp_ok hset, runCase_of_arguments_error harg]
  | ok launch =>
    by_cases hsup : kernel.supports s launch = .success
    swap
    · have hfails := isSuccess_eq_false_iff.mpr hsup
      have hfails' : (kernel.recorded.supports (s, log) launch).isSuccess = false := hfails
      refine ⟨[], _, s, _, .unsupported hset harg hsup, ?_, ?_⟩
      · rw [run_of_setUp_ok hset, runCase_of_arguments_ok harg, attempt_of_unsupported hfails]
      · rw [hsilent, run_of_setUp_ok hset, runCase_of_arguments_ok harg,
          attempt_of_unsupported hfails']
        rfl
    have hoffered : Offered kernel config r s device case placed launch := ⟨hset, harg, hsup⟩
    have hsucceeds : (kernel.supports s launch).isSuccess = true := by rw [hsup]; rfl
    have hsucceeds' : (kernel.recorded.supports (s, log) launch).isSuccess = true := hsucceeds
    rcases hb : Buffer.allocate (kernel.scratchSize s launch) placed with e | ⟨buffer, scratch⟩
    · have hb' : Buffer.allocate (kernel.recorded.scratchSize (s, log) launch) placed =
        .error e := hb
      refine ⟨[], _, s, _, .withoutScratch hoffered hb, ?_, ?_⟩
      · rw [run_of_setUp_ok hset, runCase_of_arguments_ok harg,
          attempt_of_allocate_error hsucceeds hb]
      · rw [hsilent, run_of_setUp_ok hset, runCase_of_arguments_ok harg,
          attempt_of_allocate_error hsucceeds' hb']
    have hb' : Buffer.allocate (kernel.recorded.scratchSize (s, log) launch) placed =
      .ok (buffer, scratch) := hb
    rw [run_of_setUp_ok hset, runCase_of_arguments_ok harg, attempt_of_allocate_ok hsucceeds hb,
      run_of_setUp_ok hset, runCase_of_arguments_ok harg, attempt_of_allocate_ok hsucceeds' hb']
    rcases hp : kernel.prepare s launch buffer.pointer with ⟨status, s₁⟩
    have hp' : kernel.recorded.prepare (s, log) launch buffer.pointer =
        (status, s₁, log ++ [.prepare launch buffer.pointer status]) := by
      simp only [Kernel.recorded, hp]
    by_cases hprepared : status = .success
    swap
    · refine ⟨_, _, s₁, _, .unprepared hoffered hb hp hprepared, ?_, ?_⟩
      · rw [launchWith_of_unprepared hp hprepared]
      · rw [launchWith_of_unprepared hp' hprepared]
        rfl
    subst hprepared
    rcases hr : kernel.run s₁ (kernel.prepareOn s launch buffer.pointer scratch) with
      ⟨status, s₂, left⟩
    have hr' : kernel.recorded.run (s₁, log ++ [.prepare launch buffer.pointer .success])
        (kernel.recorded.prepareOn (s, log) launch buffer.pointer scratch) =
        (status, (s₂, log ++ [.prepare launch buffer.pointer .success, .run status left]),
          left) := by
      simp only [Kernel.recorded, hr, List.append_assoc, List.cons_append, List.nil_append]
    by_cases hran : status = .success
    · subst hran
      refine ⟨_, _, s₂, _, .synchronized hoffered hb hp hr, ?_, ?_⟩
      · rw [launchWith_of_ran hp hr]
      · rw [launchWith_of_ran hp' hr']
    · refine ⟨_, _, s₂, _, .failed hoffered hb hp hr hran, ?_, ?_⟩
      · rw [launchWith_of_failed hp hr hran]
      · rw [launchWith_of_failed hp' hr' hran]

/-! ### What follows for one round -/

/-- What a round does, in the order of its stages. -/
structure Orderly (kernel : Kernel σ) (config : Config) (r : Round) (s : σ) (before : Device)
    (calls : List Call) (result : Except Failure Outcome) (after : Device) : Prop where
  /-- A kernel is prepared for what it supports, with the scratch buffer that it has asked for. -/
  prepare_after : ∀ launch workspace status, Call.prepare launch workspace status ∈ calls →
    ∃ case placed buffer scratch, Offered kernel config r s before case placed launch ∧
      Buffer.allocate (kernel.scratchSize s launch) placed = .ok (buffer, scratch) ∧
      workspace = buffer.pointer
  /-- A kernel is run once it has been prepared, and only once. -/
  run_after : ∀ status left, Call.run status left ∈ calls →
    ∃ launch workspace, calls = [.prepare launch workspace .success, .run status left]
  /-- What is supported and has its scratch buffer is prepared for, and run if that succeeds. -/
  proceeds : ∀ case placed launch buffer scratch,
    Offered kernel config r s before case placed launch →
    Buffer.allocate (kernel.scratchSize s launch) placed = .ok (buffer, scratch) →
    .prepare launch buffer.pointer (kernel.prepare s launch buffer.pointer).1 ∈ calls ∧
      ((kernel.prepare s launch buffer.pointer).1 = .success → ∃ status left,
        .run status left ∈ calls)
  /-- What is not supported is skipped, without a scratch buffer. -/
  skips : ∀ case placed launch,
    Case.setUp config r.problem r.alpha r.beta before = (.ok case, placed) →
    case.arguments = .ok launch → kernel.supports s launch ≠ .success →
    result = .ok (.skipped (kernel.supports s launch)) ∧ calls = [] ∧
      after.totalAllocations = placed.totalAllocations
  fails_prepared : ∀ launch workspace status, Call.prepare launch workspace status ∈ calls →
    status ≠ .success → result = .ok (.kernelFailed .prepare status)
  fails_run : ∀ status left, Call.run status left ∈ calls → status ≠ .success →
    result = .ok (.kernelFailed .run status)
  /-- An error that is pending after a run comes out of the round, and no other. -/
  delivers_iff : ∀ e, result = (if e.isFatal then .error (.device e) else .ok (.deviceFailed e)) ↔
    ∃ left, Call.run .success left ∈ calls ∧ left.pending = some e
  /-- There is a report where all stages and the synchronization have succeeded. -/
  reports_iff : (∃ outcome report, result = .ok outcome ∧ outcome.report? = some report) ↔
    ∃ left, Call.run .success left ∈ calls ∧ left.pending = none
  passes_iff : ∀ outcome report, result = .ok outcome → outcome.report? = some report →
    (outcome.isPassed = true ↔ report.passed = true)

theorem deviceFailure_eq (e : DeviceError) :
    deviceFailure e = if e.isFatal then .error (.device e) else .ok (.deviceFailed e) := rfl

/-- A failure that is mild does not come from a synchronization. -/
theorem error_ne_deviceFailure {e : Failure} (he : e.Mild) (e' : DeviceError) :
    .error e ≠ deviceFailure e' := by
  intro h
  cases e' <;> cases h
  exact he _ rfl

theorem ok_ne_deviceFailure {outcome : Outcome} (h : ∀ e, outcome ≠ .deviceFailed e)
    (e : DeviceError) : .ok outcome ≠ deviceFailure e := by
  intro heq
  rw [deviceFailure_eq] at heq
  split_ifs at heq
  exact h e (Except.ok.inj heq)

theorem deviceFailure_inj {e e' : DeviceError} (h : deviceFailure e = deviceFailure e') :
    e = e' := by
  cases e <;> cases e' <;> cases h <;> rfl

section Collecting
variable {case : Case} {placed scratch left : Device} {launch : Launch} {buffer : Buffer}
  {s₁ s₂ : σ} {status : KernelStatus}

/-- **Where nothing is freed, the outputs of a run can be collected.** -/
theorem exists_collected (hk : kernel.Retains) (hd : device.Sound)
    (offered : Offered kernel config r s device case placed launch)
    (allocate : Buffer.allocate (kernel.scratchSize s launch) placed = .ok (buffer, scratch))
    (runs : kernel.run s₁ (kernel.prepareOn s launch buffer.pointer scratch) = (status, s₂, left))
    (hpending : left.pending = none) :
    ∃ pulled : Case, (collect case left).1 = .ok pulled.outcome := by
  have hm := materialized_of_setUp hd offered.setUp
  have hscratch := hm.holds.sound.retains_buffer_allocate allocate
  have hprepared := hscratch.trans (hk.prepareOn s launch buffer.pointer scratch hscratch.sound)
  have hleft : placed.Retains left := by
    have hran := hprepared.trans (hk.run s₁ _ hprepared.sound)
    rwa [runs] at hran
  have hsync : left.synchronize.2.Sound :=
    hleft.sound.of_sameShape (Device.sameShape_synchronize left)
  have hlive : case.Live left.synchronize.2 := by
    intro staged hmem hne
    obtain ⟨bytes, hbytes, hlength⟩ := hm.live (.refl placed) staged hmem hne
    obtain ⟨bytes', hbytes', hlength'⟩ := hleft.contents _ _ hbytes
    exact ⟨bytes', hbytes', hlength'.trans hlength⟩
  obtain ⟨pulled, hpull, -, -⟩ := hm.exists_pulledFrom hsync hlive
  refine ⟨pulled, ?_⟩
  rw [collect_of_not_pending hpending, hpull]

end Collecting

namespace Course

variable {calls : List Call} {result : Except Failure Outcome} {after : Device}

theorem prepare_after (h : Course kernel config r s device calls result after) {launch : Launch}
    {workspace : Pointer} {status : KernelStatus}
    (hmem : Call.prepare launch workspace status ∈ calls) :
    ∃ case placed buffer scratch, Offered kernel config r s device case placed launch ∧
      Buffer.allocate (kernel.scratchSize s launch) placed = .ok (buffer, scratch) ∧
      workspace = buffer.pointer := by
  cases h with
  | unmade | unargued | unsupported | withoutScratch => cases hmem
  | unprepared offered allocate | failed offered allocate | synchronized offered allocate =>
    simp only [List.mem_cons, List.not_mem_nil, Call.prepare.injEq, or_false, reduceCtorEq] at hmem
    obtain ⟨rfl, rfl, -⟩ := hmem
    exact ⟨_, _, _, _, offered, allocate, rfl⟩

theorem run_after (h : Course kernel config r s device calls result after) {status : KernelStatus}
    {left : Device} (hmem : Call.run status left ∈ calls) :
    ∃ launch workspace, calls = [.prepare launch workspace .success, .run status left] := by
  cases h with
  | unmade | unargued | unsupported | withoutScratch => cases hmem
  | unprepared => simp at hmem
  | failed | synchronized =>
    simp only [List.mem_cons, List.not_mem_nil, Call.run.injEq, reduceCtorEq, or_false,
      false_or] at hmem
    obtain ⟨rfl, rfl⟩ := hmem
    exact ⟨_, _, rfl⟩

theorem proceeds (h : Course kernel config r s device calls result after) {case : Case}
    {placed scratch : Device} {launch : Launch} {buffer : Buffer}
    (offered : Offered kernel config r s device case placed launch)
    (allocate : Buffer.allocate (kernel.scratchSize s launch) placed = .ok (buffer, scratch)) :
    .prepare launch buffer.pointer (kernel.prepare s launch buffer.pointer).1 ∈ calls ∧
      ((kernel.prepare s launch buffer.pointer).1 = .success → ∃ status left,
        .run status left ∈ calls) := by
  cases h with
  | unmade setUp => exact absurd setUp (by rw [offered.setUp]; simp)
  | unargued setUp arguments =>
    cases setUp.symm.trans offered.setUp
    exact absurd arguments (by rw [offered.arguments]; simp)
  | unsupported setUp arguments supports =>
    cases setUp.symm.trans offered.setUp
    cases arguments.symm.trans offered.arguments
    exact absurd offered.supports supports
  | withoutScratch offered' allocate' =>
    obtain ⟨rfl, rfl, rfl⟩ := offered.inj offered'
    exact absurd allocate' (by rw [allocate]; simp)
  | unprepared offered' allocate' prepares fails =>
    obtain ⟨rfl, rfl, rfl⟩ := offered.inj offered'
    cases allocate.symm.trans allocate'
    rw [prepares]
    exact ⟨List.mem_singleton_self _, fun hsuccess => absurd hsuccess fails⟩
  | failed offered' allocate' prepares | synchronized offered' allocate' prepares =>
    obtain ⟨rfl, rfl, rfl⟩ := offered.inj offered'
    cases allocate.symm.trans allocate'
    rw [prepares]
    exact ⟨List.mem_cons_self, fun _ => ⟨_, _, List.mem_cons_of_mem _ (List.mem_singleton_self _)⟩⟩

theorem skips (h : Course kernel config r s device calls result after) {case : Case}
    {placed : Device} {launch : Launch}
    (hset : Case.setUp config r.problem r.alpha r.beta device = (.ok case, placed))
    (harg : case.arguments = .ok launch) (hsup : kernel.supports s launch ≠ .success) :
    result = .ok (.skipped (kernel.supports s launch)) ∧ calls = [] ∧
      after.totalAllocations = placed.totalAllocations := by
  have hnone : ∀ {case' placed' launch'},
      ¬ Offered kernel config r s device case' placed' launch' := by
    intro case' placed' launch' offered
    cases hset.symm.trans offered.setUp
    cases harg.symm.trans offered.arguments
    exact hsup offered.supports
  cases h with
  | unmade setUp => exact absurd setUp (by rw [hset]; simp)
  | unargued setUp arguments =>
    cases hset.symm.trans setUp
    exact absurd arguments (by rw [harg]; simp)
  | unsupported setUp arguments =>
    cases hset.symm.trans setUp
    cases harg.symm.trans arguments
    obtain ⟨allocations, allocatedBytes, hrelease⟩ := placed.releaseAll_eq case.pointers
    exact ⟨rfl, rfl, by rw [Case.release, hrelease]⟩
  | withoutScratch offered | unprepared offered | failed offered | synchronized offered =>
    exact absurd offered hnone

theorem fails_prepared (h : Course kernel config r s device calls result after) {launch : Launch}
    {workspace : Pointer} {status : KernelStatus}
    (hmem : Call.prepare launch workspace status ∈ calls) (hstatus : status ≠ .success) :
    result = .ok (.kernelFailed .prepare status) := by
  cases h with
  | unmade | unargued | unsupported | withoutScratch => cases hmem
  | unprepared =>
    simp only [List.mem_cons, List.not_mem_nil, Call.prepare.injEq, or_false] at hmem
    rw [hmem.2.2]
  | failed | synchronized =>
    simp only [List.mem_cons, List.not_mem_nil, Call.prepare.injEq, or_false, reduceCtorEq] at hmem
    exact absurd hmem.2.2 hstatus

theorem fails_run (h : Course kernel config r s device calls result after) {status : KernelStatus}
    {left : Device} (hmem : Call.run status left ∈ calls) (hstatus : status ≠ .success) :
    result = .ok (.kernelFailed .run status) := by
  cases h with
  | unmade | unargued | unsupported | withoutScratch => cases hmem
  | unprepared => simp at hmem
  | failed =>
    simp only [List.mem_cons, List.not_mem_nil, Call.run.injEq, reduceCtorEq, or_false,
      false_or] at hmem
    rw [hmem.1]
  | synchronized =>
    simp only [List.mem_cons, List.not_mem_nil, Call.run.injEq, reduceCtorEq, or_false,
      false_or] at hmem
    exact absurd hmem.1 hstatus

/-- **Where the synchronization is reached, the error that is pending there decides.**  Everywhere
else there is neither a report nor an error of the synchronization. -/
theorem settled (h : Course kernel config r s device calls result after) (hk : kernel.Retains)
    (hd : device.Sound) :
    (∃ left, Call.run .success left ∈ calls ∧
      ((left.pending = none ∧ ∃ pulled : Case, result = .ok pulled.outcome) ∨
        ∃ e, left.pending = some e ∧ result = deviceFailure e)) ∨
    (∀ left, Call.run .success left ∉ calls) ∧ (∀ e, result ≠ deviceFailure e) ∧
      ∀ outcome, result = .ok outcome → outcome.report? = none := by
  have herror : ∀ {e : Failure}, e.Mild → (∀ e', .error e ≠ deviceFailure e') ∧
      ∀ outcome : Outcome, Except.error e = .ok outcome → outcome.report? = none :=
    fun he => ⟨error_ne_deviceFailure he, fun _ h => by cases h⟩
  cases h with
  | unmade setUp => exact Or.inr ⟨by simp, herror ((Case.setUp_settings hd).2 _ _ setUp).1⟩
  | unargued setUp arguments =>
    have hm := materialized_of_setUp hd setUp
    by_cases hrows : config.Rowless r.problem
    · cases arguments.symm.trans (hm.arguments_of_rowless hrows)
      exact Or.inr ⟨by simp, herror (by simp [Failure.Mild])⟩
    · obtain ⟨launch, harg⟩ := hm.exists_arguments hrows
      exact absurd arguments (by rw [harg]; simp)
  | unsupported =>
    refine Or.inr ⟨by simp, ok_ne_deviceFailure (by simp), fun _ h => ?_⟩
    cases h
    rfl
  | withoutScratch offered allocate =>
    have hm := materialized_of_setUp hd offered.setUp
    rcases (Device.Twins.refl hm.holds.sound).buffer_allocate (kernel.scratchSize s _) with
      ⟨buffer, _, scratch, _, hb, -, -⟩ | ⟨e, he, hb, -⟩
    · exact absurd allocate (by rw [hb]; simp)
    · cases allocate.symm.trans hb
      exact Or.inr ⟨by simp, herror he⟩
  | unprepared =>
    refine Or.inr ⟨by simp, ok_ne_deviceFailure (by simp), fun _ h => ?_⟩
    cases h
    rfl
  | failed offered allocate prepares runs fails =>
    refine Or.inr ⟨by simpa [eq_comm] using fails, ok_ne_deviceFailure (by simp), fun _ h => ?_⟩
    cases h
    rfl
  | @synchronized case placed scratch left launch buffer s₁ s₂ offered allocate prepares runs =>
    refine Or.inl ⟨left, by simp, ?_⟩
    cases hpending : left.pending with
    | none => exact Or.inl ⟨rfl, exists_collected hk hd offered allocate runs hpending⟩
    | some e => exact Or.inr ⟨e, rfl, collect_of_pending hpending⟩

theorem left_unique (h : Course kernel config r s device calls result after)
    {status status' : KernelStatus} {left left' : Device} (hmem : Call.run status left ∈ calls)
    (hmem' : Call.run status' left' ∈ calls) : left = left' := by
  obtain ⟨launch, workspace, rfl⟩ := h.run_after hmem
  simp only [List.mem_cons, List.not_mem_nil, Call.run.injEq, reduceCtorEq, or_false,
    false_or] at hmem'
  exact hmem'.2.symm

/-- **Every course is orderly.** -/
theorem orderly (h : Course kernel config r s device calls result after) (hk : kernel.Retains)
    (hd : device.Sound) : Orderly kernel config r s device calls result after where
  prepare_after _ _ _ := h.prepare_after
  run_after _ _ := h.run_after
  proceeds _ _ _ _ _ := h.proceeds
  skips _ _ _ := h.skips
  fails_prepared _ _ _ := h.fails_prepared
  fails_run _ _ := h.fails_run
  delivers_iff e := by
    rw [← deviceFailure_eq]
    rcases h.settled hk hd with
      ⟨left, hmem, ⟨hnone, pulled, rfl⟩ | ⟨e', hpending, rfl⟩⟩ | ⟨hnever, hne, -⟩
    · refine ⟨fun heq => absurd heq (ok_ne_deviceFailure (fun e he => ?_) e), ?_⟩
      · have hreport := pulled.report?_outcome
        rw [he] at hreport
        cases hreport
      · rintro ⟨left', hmem', hpending⟩
        rw [← h.left_unique hmem hmem', hnone] at hpending
        cases hpending
    · refine ⟨fun heq => ⟨left, hmem, deviceFailure_inj heq ▸ hpending⟩, ?_⟩
      rintro ⟨left', hmem', hpending'⟩
      rw [← h.left_unique hmem hmem', hpending, Option.some.injEq] at hpending'
      rw [hpending']
    · exact ⟨fun heq => absurd heq (hne e), fun ⟨left, hmem, _⟩ => absurd hmem (hnever left)⟩
  reports_iff := by
    rcases h.settled hk hd with
      ⟨left, hmem, ⟨hnone, pulled, rfl⟩ | ⟨e', hpending, rfl⟩⟩ | ⟨hnever, -, hnoreport⟩
    · exact ⟨fun _ => ⟨left, hmem, hnone⟩, fun _ => ⟨_, _, rfl, pulled.report?_outcome⟩⟩
    · constructor
      · rintro ⟨outcome, report, hok, hreport⟩
        rw [report?_of_deviceFailure hok] at hreport
        cases hreport
      · rintro ⟨left', hmem', hnone⟩
        rw [← h.left_unique hmem hmem', hpending] at hnone
        cases hnone
    · constructor
      · rintro ⟨outcome, report, hok, hreport⟩
        rw [hnoreport outcome hok] at hreport
        cases hreport
      · rintro ⟨left, hmem, -⟩
        exact absurd hmem (hnever left)
  passes_iff outcome report hok hreport := by
    rcases h.settled hk hd with
      ⟨left, hmem, ⟨hnone, pulled, rfl⟩ | ⟨e', hpending, rfl⟩⟩ | ⟨-, -, hnoreport⟩
    · cases hok
      rw [pulled.report?_outcome, Option.some.injEq] at hreport
      rw [pulled.isPassed_outcome, hreport]
    · rw [report?_of_deviceFailure hok] at hreport
      cases hreport
    · rw [hnoreport outcome hok] at hreport
      cases hreport

/-- A round leaves a sound device. -/
theorem sound (h : Course kernel config r s device calls result after) (hk : kernel.Retains)
    (hd : device.Sound) : after.Sound := by
  have hgranted : ∀ {case : Case} {placed scratch : Device} {launch : Launch} {buffer : Buffer},
      Offered kernel config r s device case placed launch →
      Buffer.allocate (kernel.scratchSize s launch) placed = .ok (buffer, scratch) →
      (kernel.prepareOn s launch buffer.pointer scratch).Sound := fun offered allocate =>
    (hk.prepareOn s _ _ _ ((materialized_of_setUp hd offered.setUp).holds.sound.buffer_allocate
      allocate)).sound
  have hran : ∀ {s₁ s₂ : σ} {prepared left : Device} {status : KernelStatus},
      kernel.run s₁ prepared = (status, s₂, left) → prepared.Sound → left.Sound := by
    intro s₁ s₂ prepared left status runs hprepared
    have hleft := (hk.run s₁ prepared hprepared).sound
    rwa [runs] at hleft
  cases h with
  | unmade setUp => exact (allocations_setUp_of_error hd setUp).1
  | unargued setUp | unsupported setUp =>
    exact (materialized_of_setUp hd setUp).holds.sound.releaseAll _
  | withoutScratch offered =>
    exact (materialized_of_setUp hd offered.setUp).holds.sound.releaseAll _
  | unprepared offered allocate =>
    exact ((hgranted offered allocate).release _).releaseAll _
  | failed offered allocate prepares runs =>
    exact ((hran runs (hgranted offered allocate)).release _).releaseAll _
  | synchronized offered allocate prepares runs =>
    exact (((hran runs (hgranted offered allocate)).of_sameShape
      (Device.sameShape_synchronize _)).release _).releaseAll _

/-- **An error stays pending until the device is waited for.** -/
theorem pending (h : Course kernel config r s device calls result after)
    (hp : kernel.LeavesPending) (hd : device.Sound) :
    (∃ left, Call.run .success left ∈ calls ∧ left.pending = device.pending ∧
      after.pending = none) ∨
    (∀ left, Call.run .success left ∉ calls) ∧ after.pending = device.pending := by
  have hplaced : ∀ {case : Case} {placed : Device},
      Case.setUp config r.problem r.alpha r.beta device = (.ok case, placed) →
      placed.pending = device.pending := fun setUp =>
    ((Case.setUp_settings hd).1 _ _ setUp).pending_eq
  have hgranted : ∀ {case : Case} {placed scratch : Device} {launch : Launch} {buffer : Buffer},
      Offered kernel config r s device case placed launch →
      Buffer.allocate (kernel.scratchSize s launch) placed = .ok (buffer, scratch) →
      (kernel.prepareOn s launch buffer.pointer scratch).pending = device.pending :=
    fun offered allocate => (hp.prepareOn s _ _ _).trans
      ((Device.pending_buffer_allocate allocate).trans (hplaced offered.setUp))
  have hran : ∀ {s₁ s₂ : σ} {prepared left : Device} {status : KernelStatus},
      kernel.run s₁ prepared = (status, s₂, left) → left.pending = prepared.pending := by
    intro s₁ s₂ prepared left status runs
    have hleft := hp.run s₁ prepared
    rwa [runs] at hleft
  cases h with
  | unmade setUp => exact Or.inr ⟨by simp, ((Case.setUp_settings hd).2 _ _ setUp).2.pending_eq⟩
  | unargued setUp | unsupported setUp =>
    exact Or.inr ⟨by simp, (Device.pending_releaseAll _ _).trans (hplaced setUp)⟩
  | withoutScratch offered =>
    exact Or.inr ⟨by simp, (Device.pending_releaseAll _ _).trans (hplaced offered.setUp)⟩
  | unprepared offered allocate =>
    exact Or.inr ⟨by simp, (Device.pending_releaseAll _ _).trans
      ((Device.pending_releaseAll _ [_]).trans (hgranted offered allocate))⟩
  | failed offered allocate prepares runs fails =>
    exact Or.inr ⟨by simpa [eq_comm] using fails, (Device.pending_releaseAll _ _).trans
      ((Device.pending_releaseAll _ [_]).trans ((hran runs).trans (hgranted offered allocate)))⟩
  | synchronized offered allocate prepares runs =>
    exact Or.inl ⟨_, by simp, (hran runs).trans (hgranted offered allocate),
      (Device.pending_releaseAll _ _).trans (Device.pending_releaseAll _ [_])⟩

end Course

/-! ### Sequences -/

/-- One round of a sequence, with the kernel's state and the device before and after it. -/
structure Turn (σ : Type) where
  round : Round
  start : σ
  before : Device
  result : Except Failure Outcome
  stop : σ
  after : Device

/-- The rounds of a sequence, one after the other. -/
def turns (kernel : Kernel σ) (config : Config) : List Round → σ → Device → List (Turn σ)
  | [], _, _ => []
  | r :: rest, s, device =>
    let (result, s', device') := run kernel config r s device
    ⟨r, s, device, result, s', device'⟩ :: turns kernel config rest s' device'

/-- The calls that a kernel gets in its turn. -/
def Turn.calls (t : Turn (σ × List Call)) : List Call := t.stop.2.drop t.start.2.length

/-- All stages succeed, so that the device is waited for. -/
def Turn.Synchronizes (t : Turn (σ × List Call)) : Prop := ∃ left, Call.run .success left ∈ t.calls

section Sequences
variable {rounds : List Round} {log : List Call} {t : Turn (σ × List Call)}
  {earlier later : List (Turn (σ × List Call))}

/-- What comes after a turn starts from where the turn has ended. -/
theorem exists_rest {kernel : Kernel σ} {t : Turn σ} {earlier later : List (Turn σ)}
    (h : turns kernel config rounds s device = earlier ++ t :: later) :
    ∃ rest, later = turns kernel config rest t.stop t.after := by
  induction rounds generalizing s device earlier with
  | nil => simp [turns] at h
  | cons r rest ih =>
    cases earlier with
    | nil =>
      obtain ⟨rfl, rfl⟩ := List.cons.inj h
      exact ⟨rest, rfl⟩
    | cons u earlier => exact ih (List.cons.inj h).2

/-- Recording changes nothing. -/
theorem map_turns (kernel : Kernel σ) (config : Config) (rounds : List Round) (s : σ)
    (log : List Call) (device : Device) :
    (turns kernel.recorded config rounds (s, log) device).map (fun t => (t.result, t.after)) =
      runAll kernel config rounds s device := by
  induction rounds generalizing s log device with
  | nil => rfl
  | cons r rest ih =>
    obtain ⟨calls, result, s', after, -, hrun, hrecorded⟩ :=
      exists_course kernel config r s log device
    simp only [turns, runAll, hrun, hrecorded, List.map_cons, ih]

/-- **Every turn takes its course on a sound device.** -/
theorem course_of_mem_turns (hk : kernel.Retains) (hd : device.Sound)
    (ht : t ∈ turns kernel.recorded config rounds (s, log) device) :
    t.before.Sound ∧
      Course kernel config t.round t.start.1 t.before t.calls t.result t.after := by
  induction rounds generalizing s log device with
  | nil => cases ht
  | cons r rest ih =>
    obtain ⟨calls, result, s', after, hcourse, -, hrecorded⟩ :=
      exists_course kernel config r s log device
    simp only [turns, hrecorded, List.mem_cons] at ht
    rcases ht with rfl | ht
    · have hcalls : (log ++ calls).drop log.length = calls := List.drop_left
      refine ⟨hd, ?_⟩
      rw [Turn.calls, hcalls]
      exact hcourse
    · exact ih (hcourse.sound hk hd) ht

/-- A device without a pending error has none after any turn, and none comes out of one. -/
theorem no_failure_of_not_pending (hk : kernel.Retains) (hp : kernel.LeavesPending)
    (hd : device.Sound) (hnone : device.pending = none)
    (ht : t ∈ turns kernel.recorded config rounds (s, log) device) (e : DeviceError) :
    t.result ≠ deviceFailure e := by
  induction rounds generalizing s log device with
  | nil => cases ht
  | cons r rest ih =>
    obtain ⟨calls, result, s', after, hcourse, -, hrecorded⟩ :=
      exists_course kernel config r s log device
    simp only [turns, hrecorded, List.mem_cons] at ht
    rcases ht with rfl | ht
    · intro heq
      obtain ⟨left, hmem, hpending⟩ := ((hcourse.orderly hk hd).delivers_iff e).mp heq
      rcases hcourse.pending hp hd with ⟨left', hmem', hleft, -⟩ | ⟨hnever, -⟩
      · rw [hcourse.left_unique hmem hmem', hleft, hnone] at hpending
        cases hpending
      · exact hnever left hmem
    · refine ih (hcourse.sound hk hd) ?_ ht
      rcases hcourse.pending hp hd with ⟨-, -, -, hafter⟩ | ⟨-, hafter⟩
      · exact hafter
      · exact hafter.trans hnone

/-- An error is still pending before a turn if no earlier one has waited for the device. -/
theorem pending_before (hk : kernel.Retains) (hp : kernel.LeavesPending) (hd : device.Sound)
    (h : turns kernel.recorded config rounds (s, log) device = earlier ++ t :: later)
    (hearlier : ∀ u ∈ earlier, ¬ u.Synchronizes) : t.before.pending = device.pending := by
  induction rounds generalizing s log device earlier with
  | nil => simp [turns] at h
  | cons r rest ih =>
    obtain ⟨calls, result, s', after, hcourse, -, hrecorded⟩ :=
      exists_course kernel config r s log device
    simp only [turns, hrecorded] at h
    cases earlier with
    | nil =>
      obtain ⟨rfl, -⟩ := List.cons.inj h
      rfl
    | cons u earlier =>
      obtain ⟨rfl, hrest⟩ := List.cons.inj h
      have hcalls : (log ++ calls).drop log.length = calls := List.drop_left
      have hsilent := hearlier _ List.mem_cons_self
      unfold Turn.Synchronizes Turn.calls at hsilent
      rw [hcalls] at hsilent
      refine (ih (hcourse.sound hk hd) hrest fun u hu =>
        hearlier u (List.mem_cons_of_mem _ hu)).trans ?_
      rcases hcourse.pending hp hd with ⟨left, hmem, -⟩ | ⟨-, hafter⟩
      · exact absurd ⟨left, hmem⟩ hsilent
      · exact hafter

/-- **The stages of any sequence of rounds.**  The kernel may report anything at each of its stages,
and write and allocate what it likes, but it frees nothing.  Recording its calls changes nothing, and
in each turn they and what comes out of it are in order (`Orderly`).  If it leaves the pending error
of the device alone, an error that is pending at the start comes out of the first turn that waits for
the device and of no other.  The directory for dumps changes neither reports nor devices. -/
theorem turns_orderly (hk : kernel.Retains) (hd : device.Sound) (config : Config)
    (rounds : List Round) (s : σ) :
    (turns kernel.recorded config rounds (s, []) device).map (fun t => (t.result, t.after)) =
      runAll kernel config rounds s device ∧
    (∀ t ∈ turns kernel.recorded config rounds (s, []) device,
      Orderly kernel config t.round t.start.1 t.before t.calls t.result t.after) ∧
    (kernel.LeavesPending → ∀ e, device.pending = some e → ∀ earlier t later,
      turns kernel.recorded config rounds (s, []) device = earlier ++ t :: later →
      (∀ u ∈ earlier, ¬ u.Synchronizes) →
        (t.Synchronizes →
          t.result = (if e.isFatal then .error (.device e) else .ok (.deviceFailed e)) ∧
          t.after.pending = none ∧ ∀ u ∈ later, ∀ e', u.result ≠ deviceFailure e') ∧
        (¬ t.Synchronizes → t.after.pending = some e ∧ ∀ e', t.result ≠ deviceFailure e')) ∧
    ∀ directory,
      (runAll kernel (config.dumpingTo directory) rounds s device).map
          (Prod.map (Except.map Outcome.withoutDump) id) =
        (runAll kernel config rounds s device).map
          (Prod.map (Except.map Outcome.withoutDump) id) := by
  refine ⟨map_turns kernel config rounds s [] device, fun t ht => ?_, ?_,
    fun directory => runAll_dumpingTo config directory kernel rounds s device⟩
  · obtain ⟨hbefore, hcourse⟩ := course_of_mem_turns hk hd ht
    exact hcourse.orderly hk hbefore
  intro hp e hpending earlier t later hturns hearlier
  have hmem : t ∈ turns kernel.recorded config rounds (s, []) device := by
    rw [hturns]
    exact List.mem_append_right _ List.mem_cons_self
  obtain ⟨hbefore, hcourse⟩ := course_of_mem_turns hk hd hmem
  have hpending' : t.before.pending = some e :=
    (pending_before hk hp hd hturns hearlier).trans hpending
  have hdelivers := (hcourse.orderly hk hbefore).delivers_iff
  rcases hcourse.pending hp hbefore with ⟨left, hleft, hsame, hafter⟩ | ⟨hnever, hafter⟩
  · refine ⟨fun _ => ⟨(hdelivers e).mpr ⟨left, hleft, hsame.trans hpending'⟩, hafter, ?_⟩,
      fun hsilent => absurd ⟨left, hleft⟩ hsilent⟩
    obtain ⟨rest, rfl⟩ := exists_rest hturns
    exact fun u hu => no_failure_of_not_pending hk hp (hcourse.sound hk hbefore) hafter hu
  · refine ⟨fun ⟨left, hleft⟩ => absurd hleft (hnever left),
      fun _ => ⟨hafter.trans hpending', fun e' heq => ?_⟩⟩
    obtain ⟨left, hleft, -⟩ := (hdelivers e').mp heq
    exact hnever left hleft

end Sequences

/-- A kernel that fails to be prepared until it has been tried once. -/
def warming : Kernel Bool where
  supports _ _ := .success
  scratchSize _ _ := 8
  prepare warm _ _ := (if warm then .success else .internalError, true)
  run warm device := (.success, warm, device)

/-- An outer product. -/
def outer : Round := ⟨.single 2 2 1, 1, 0⟩

/-- A device whose next synchronization reports an error. -/
def late : Device := ({} : Device).failNext (.other "late")

theorem retains_warming : warming.Retains :=
  Kernel.KeepsShape.retains ⟨fun _ _ _ _ _ => .refl _, fun _ _ _ => .refl _⟩

/-- The error passes by the round that fails earlier and comes out of the next one. -/
theorem turns_orderly_warming : warming.Retains ∧ late.Sound ∧ warming.LeavesPending ∧
    late.pending = some (.other "late") ∧ ∃ first second third,
      turns warming.recorded {} [outer, outer, outer] (false, []) late = [first, second, third] ∧
      first.result = .ok (.kernelFailed .prepare .internalError) ∧
      second.result = .ok (.deviceFailed (.other "late")) ∧
      ∃ outcome report, third.result = .ok outcome ∧ outcome.report? = some report := by
  have hk := retains_warming
  have hd : late.Sound := (Device.sound_empty none).of_sameShape (Device.sameShape_failNext _ _)
  have hp : warming.LeavesPending := ⟨fun _ _ _ _ => rfl, fun _ _ => rfl⟩
  obtain ⟨-, horderly, hdelivered, -⟩ := turns_orderly hk hd {} [outer, outer, outer] false
  obtain ⟨first, second, third, hturns, ⟨launch, workspace, hfirst⟩, ⟨left, hsecond⟩,
      left', hthird, hnone⟩ : ∃ first second third,
      turns warming.recorded {} [outer, outer, outer] (false, []) late = [first, second, third] ∧
      (∃ launch workspace, first.calls = [.prepare launch workspace .internalError]) ∧
      (∃ left, Call.run .success left ∈ second.calls) ∧
      ∃ left, Call.run .success left ∈ third.calls ∧ left.pending = none :=
    ⟨_, _, _, rfl, ⟨_, _, rfl⟩, ⟨_, .tail _ (.head _)⟩, _, .tail _ (.head _), rfl⟩
  rw [hturns] at horderly hdelivered
  have hsilent : ∀ u ∈ [first], ¬ u.Synchronizes := by
    rintro u hu ⟨left, hleft⟩
    rw [List.mem_singleton.mp hu, hfirst] at hleft
    simp at hleft
  refine ⟨hk, hd, hp, rfl, first, second, third, hturns, ?_, ?_, ?_⟩
  · exact (horderly first (by simp)).fails_prepared launch workspace _
      (by rw [hfirst]; exact List.mem_singleton_self _) (by decide)
  · exact ((hdelivered hp _ rfl [first] second [third] rfl hsilent).1 ⟨left, hsecond⟩).1
  · exact (horderly third (by simp)).reports_iff.mpr ⟨left', hthird, hnone⟩

end Round

end FusedGemm
