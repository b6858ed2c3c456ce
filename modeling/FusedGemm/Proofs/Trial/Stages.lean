import FusedGemm.Trial.Round
import Mathlib

/-!
# The stages of a round

What each stage of `Round.run` leaves of the device (`launchWith_device`, `attempt_device`,
`run_device`), and how a round that comes to a report has passed through them: its case is
`Launched`, and its outcome is that of the outputs copied back (`exists_launched_of_report`).
-/

namespace FusedGemm

namespace Round

variable {σ : Type} {kernel : Kernel σ} {config : Config} {r : Round} {case : Case}
  {launch : Launch} {workspace : Pointer} {s : σ} {device launched : Device} {outcome : Outcome}

/-! ### The device after each stage -/

theorem collect_device (case : Case) (device : Device) :
    (collect case device).2 = device.synchronize.2 := by
  unfold collect
  rcases device.synchronize with ⟨_ | e, device'⟩
  · dsimp only
    rcases case.pullOutputs device' with ⟨_ | e, pulled⟩ <;> rfl
  · rfl

theorem launchWith_eq (kernel : Kernel σ) (case : Case) (launch : Launch) (workspace : Pointer)
    (s : σ) (device : Device) :
    launchWith kernel case launch workspace s device =
      let prepared := kernel.prepareOn s launch workspace device
      let (status, s₁) := kernel.prepare s launch workspace
      let (status', s₂, ran) := kernel.run s₁ prepared
      if !status.isSuccess then (.ok (.kernelFailed .prepare status), s₁, prepared)
      else if !status'.isSuccess then (.ok (.kernelFailed .run status'), s₂, ran)
      else ((collect case ran).1, s₂, (collect case ran).2) := rfl

theorem isSuccess_eq_false_iff {status : KernelStatus} :
    status.isSuccess = false ↔ status ≠ .success := by
  cases status <;> decide

section Launch
variable {case : Case} {launch : Launch} {workspace : Pointer} {status : KernelStatus} {s₁ s₂ : σ}
  {left : Device}

theorem launchWith_of_unprepared
    (hp : kernel.prepare s launch workspace = (status, s₁)) (h : status ≠ .success) :
    launchWith kernel case launch workspace s device =
      (.ok (.kernelFailed .prepare status), s₁, kernel.prepareOn s launch workspace device) := by
  simp [launchWith, hp, isSuccess_eq_false_iff.mpr h]

theorem launchWith_of_failed (hp : kernel.prepare s launch workspace = (.success, s₁))
    (hr : kernel.run s₁ (kernel.prepareOn s launch workspace device) = (status, s₂, left))
    (h : status ≠ .success) :
    launchWith kernel case launch workspace s device =
      (.ok (.kernelFailed .run status), s₂, left) := by
  simp [launchWith, hp, hr, isSuccess_eq_false_iff.mpr h, show KernelStatus.success.isSuccess from rfl]

theorem launchWith_of_ran (hp : kernel.prepare s launch workspace = (.success, s₁))
    (hr : kernel.run s₁ (kernel.prepareOn s launch workspace device) = (.success, s₂, left)) :
    launchWith kernel case launch workspace s device =
      ((collect case left).1, s₂, left.synchronize.2) := by
  simp [launchWith, hp, hr, show KernelStatus.success.isSuccess from rfl, collect_device]

end Launch

/-- A launch leaves the device as it was prepared, as the run has left it, or as that and
synchronized. -/
theorem launchWith_device (kernel : Kernel σ) (case : Case) (launch : Launch) (workspace : Pointer)
    (s : σ) (device : Device) :
    let prepared := kernel.prepareOn s launch workspace device
    let ran := (kernel.run (kernel.prepare s launch workspace).2 prepared).2.2
    let after := (launchWith kernel case launch workspace s device).2.2
    after = prepared ∨
      (kernel.prepare s launch workspace).1.isSuccess = true ∧
        (after = ran ∨ after = ran.synchronize.2) := by
  intro prepared ran after
  simp only [after, launchWith_eq]
  split_ifs with hs hs'
  · exact Or.inl rfl
  · exact Or.inr ⟨by simpa using hs, Or.inl rfl⟩
  · exact Or.inr ⟨by simpa using hs, Or.inr (collect_device case ran)⟩

theorem attempt_of_unsupported (h : (kernel.supports s launch).isSuccess = false) :
    attempt kernel case launch s device =
      (.ok (.skipped (kernel.supports s launch)), s, device) := by
  simp [attempt, h]

theorem attempt_of_allocate_error (h : (kernel.supports s launch).isSuccess = true)
    {e : DeviceError} (ha : Buffer.allocate (kernel.scratchSize s launch) device = .error e) :
    attempt kernel case launch s device = (.error (.device e), s, device) := by
  simp [attempt, h, ha]

theorem attempt_of_allocate_ok (h : (kernel.supports s launch).isSuccess = true)
    {buffer : Buffer} {scratch : Device}
    (ha : Buffer.allocate (kernel.scratchSize s launch) device = .ok (buffer, scratch)) :
    attempt kernel case launch s device =
      let launched := launchWith kernel case launch buffer.pointer s scratch
      (launched.1, launched.2.1, launched.2.2.release buffer.pointer) := by
  simp [attempt, h, ha]

theorem run_of_setUp_error {e : Failure} {placed : Device}
    (h : Case.setUp config r.problem r.alpha r.beta device = (.error e, placed)) :
    run kernel config r s device = (.error e, s, placed) := by
  simp only [run, h]

theorem run_of_setUp_ok {placed : Device}
    (h : Case.setUp config r.problem r.alpha r.beta device = (.ok case, placed)) :
    run kernel config r s device = ((runCase kernel case s placed).1,
      (runCase kernel case s placed).2.1, case.release (runCase kernel case s placed).2.2) := by
  simp only [run, h]

theorem runCase_of_arguments_error {e : Failure} (h : case.arguments = .error e) :
    runCase kernel case s device = (.error e, s, device) := by
  simp only [runCase, h]

theorem runCase_of_arguments_ok (h : case.arguments = .ok launch) :
    runCase kernel case s device = attempt kernel case launch s device := by
  simp only [runCase, h]

/-- An attempt leaves the device alone, or without the scratch buffer that the launch had. -/
theorem attempt_device (kernel : Kernel σ) (case : Case) (launch : Launch) (s : σ)
    (device : Device) :
    (attempt kernel case launch s device).2.2 = device ∨ ∃ buffer scratch,
      Buffer.allocate (kernel.scratchSize s launch) device = .ok (buffer, scratch) ∧
      (attempt kernel case launch s device).2.2 =
        (launchWith kernel case launch buffer.pointer s scratch).2.2.release buffer.pointer := by
  cases h : (kernel.supports s launch).isSuccess with
  | false =>
    rw [attempt_of_unsupported h]
    exact Or.inl rfl
  | true =>
    cases hb : Buffer.allocate (kernel.scratchSize s launch) device with
    | error e =>
      rw [attempt_of_allocate_error h hb]
      exact Or.inl rfl
    | ok b =>
      obtain ⟨buffer, scratch⟩ := b
      rw [attempt_of_allocate_ok h hb]
      exact Or.inr ⟨buffer, scratch, rfl, rfl⟩

/-- A round leaves the device that no case could be set up on, or without the case. -/
theorem run_device (kernel : Kernel σ) (config : Config) (r : Round) (s : σ) (device : Device) :
    (∃ e, Case.setUp config r.problem r.alpha r.beta device =
      (.error e, (run kernel config r s device).2.2)) ∨
    ∃ case placed, Case.setUp config r.problem r.alpha r.beta device = (.ok case, placed) ∧
      (run kernel config r s device).2.2 =
        case.release (runCase kernel case s placed).2.2 := by
  rcases hset : Case.setUp config r.problem r.alpha r.beta device with ⟨e | case, placed⟩
  · rw [run_of_setUp_error hset]
    exact Or.inl ⟨e, rfl⟩
  · refine Or.inr ⟨case, placed, rfl, ?_⟩
    rw [run_of_setUp_ok hset]

/-! ### Rounds with a report -/

/-- The round has set up the case, and the kernel has passed all its stages and left the device. -/
inductive Launched (kernel : Kernel σ) (config : Config) (r : Round) (s : σ) (device : Device) :
    Case → Device → Prop
  | intro {case : Case} {placed scratch : Device} {launch : Launch} {buffer : Buffer}
    (setUp : Case.setUp config r.problem r.alpha r.beta device = (.ok case, placed))
    (arguments : case.arguments = .ok launch)
    (supports : (kernel.supports s launch).isSuccess = true)
    (allocate : Buffer.allocate (kernel.scratchSize s launch) placed = .ok (buffer, scratch))
    (prepares : (kernel.prepare s launch buffer.pointer).1.isSuccess = true)
    (runs : (kernel.run (kernel.prepare s launch buffer.pointer).2
      (kernel.prepareOn s launch buffer.pointer scratch)).1.isSuccess = true) :
    Launched kernel config r s device case
      (kernel.run (kernel.prepare s launch buffer.pointer).2
        (kernel.prepareOn s launch buffer.pointer scratch)).2.2

/-- What a round comes to after the launch. -/
theorem run_of_launched (h : Launched kernel config r s device case launched) :
    (run kernel config r s device).1 = (collect case launched).1 := by
  obtain ⟨hset, harg, hsup, halloc, hprep, hrun⟩ := h
  rw [run_of_setUp_ok hset, runCase_of_arguments_ok harg, attempt_of_allocate_ok hsup halloc,
    launchWith_eq]
  simp [hprep, hrun]

/-- **A round that comes to a report has launched its case.** -/
theorem exists_launched_of_report {report : Report}
    (h : (run kernel config r s device).1 = .ok outcome)
    (hreport : outcome.report? = some report) :
    ∃ case launched, Launched kernel config r s device case launched := by
  rcases hset : Case.setUp config r.problem r.alpha r.beta device with ⟨e | case, placed⟩
  · rw [run_of_setUp_error hset] at h
    cases h
  rw [run_of_setUp_ok hset] at h
  cases harg : case.arguments with
  | error e =>
    rw [runCase_of_arguments_error harg] at h
    cases h
  | ok launch =>
    rw [runCase_of_arguments_ok harg] at h
    cases hsup : (kernel.supports s launch).isSuccess with
    | false =>
      rw [attempt_of_unsupported hsup] at h
      cases h
      cases hreport
    | true =>
      cases hb : Buffer.allocate (kernel.scratchSize s launch) placed with
      | error e =>
        rw [attempt_of_allocate_error hsup hb] at h
        cases h
      | ok b =>
        obtain ⟨buffer, scratch⟩ := b
        rw [attempt_of_allocate_ok hsup hb, launchWith_eq] at h
        by_cases hprep : (kernel.prepare s launch buffer.pointer).1.isSuccess = true
        · by_cases hrun : (kernel.run (kernel.prepare s launch buffer.pointer).2
              (kernel.prepareOn s launch buffer.pointer scratch)).1.isSuccess = true
          · exact ⟨case, _, .intro hset harg hsup hb hprep hrun⟩
          · simp only [hprep, hrun] at h
            cases h
            cases hreport
        · simp only [hprep] at h
          cases h
          cases hreport

/-! ### Collecting -/

theorem collect_of_pending {e : DeviceError} (h : device.pending = some e) :
    (collect case device).1 = deviceFailure e := by
  simp only [collect, Device.synchronize, h]

theorem collect_of_not_pending (h : device.pending = none) :
    (collect case device).1 = match case.pullOutputs device.synchronize.2 with
      | (some e, _) => deviceFailure e
      | (none, pulled) => .ok pulled.outcome := by
  simp only [collect, Device.synchronize, h]
  rcases case.pullOutputs { device with pending := none } with ⟨_ | e, pulled⟩ <;> rfl

theorem report?_of_deviceFailure {e : DeviceError} (h : deviceFailure e = .ok outcome) :
    outcome.report? = none := by
  unfold deviceFailure at h
  split_ifs at h
  cases h
  rfl

/-- A report is that of the outputs copied back from the synchronized device. -/
theorem exists_pulled_of_report {report : Report} (h : (collect case device).1 = .ok outcome)
    (hreport : outcome.report? = some report) :
    ∃ pulled, case.pullOutputs device.synchronize.2 = (none, pulled) ∧
      outcome = pulled.outcome := by
  cases hpending : device.pending with
  | some e =>
    rw [collect_of_pending hpending] at h
    rw [report?_of_deviceFailure h] at hreport
    cases hreport
  | none =>
    rw [collect_of_not_pending hpending] at h
    rcases hpull : case.pullOutputs device.synchronize.2 with ⟨_ | e, pulled⟩
    · rw [hpull] at h
      exact ⟨pulled, rfl, (Except.ok.inj h).symm⟩
    · rw [hpull] at h
      rw [report?_of_deviceFailure h] at hreport
      cases hreport

end Round

end FusedGemm
