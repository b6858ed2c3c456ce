import FusedGemm.Proofs.Trial.Emulating
import FusedGemm.Proofs.Trial.Verdict

/-!
# Agreement of the emulated kernel with the reference

An emulated kernel whose only faults are wrong elements of `D` is launched on a case wherever its
evaluation succeeds (`launched_of_execute`), and once launched it has left the outputs of the
reference, `D` with its faults (`Launched.contents_emulation`).  A round of a kernel without faults
that comes to an outcome has launched its case (`exists_launched_of_faultless`).  Its outputs can be
copied back and have the bytes of the reference, so no channel of the report has a mismatch
(`emulation_agrees`).
-/

namespace FusedGemm

/-- Where all channels agree only norms are left to fail a report. -/
theorem Report.passed_iff {report : Report}
    (h : ∀ found ∈ report.channels, found.mismatches.count = 0) :
    report.passed = true ↔ report.violations = [] := by
  have hall : report.channels.all ChannelOutcome.passed = true :=
    List.all_eq_true.mpr fun found hmem => beq_iff_eq.mpr (h found hmem)
  rw [passed, hall, Bool.and_true, List.isEmpty_iff]

/-! ### No false alarm -/

namespace Round

variable {config : Config} {r : Round} {kernel : EmulatedKernel}
  {device placed scratch launched : Device} {case pulled : Case} {launch : Launch}
  {buffer : Buffer} {outcome : Outcome}

/-- A kernel that has its scratch buffer takes the launch. -/
theorem prepare_emulation (hb : Buffer.allocate kernel.workspace placed = .ok (buffer, scratch))
    (launch : Launch) : emulation.prepare kernel launch buffer.pointer =
      (.success, { kernel with launch := some launch }) := by
  refine EmulatedKernel.prepare_eq fun hpos => ?_
  rcases Device.buffer_allocate_eq_ok hb with ⟨hzero, -, -⟩ | ⟨-, rfl, -⟩
  · omega
  · exact placed.nextPointer_ne_null

/-- A kernel whose only faults are wrong elements supports the launches of cases. -/
theorem supports_of_onlyOffsets (hk : kernel.OnlyOffsets)
    (hm : Materialized config r.problem r.alpha r.beta device case placed)
    (harg : case.arguments = .ok launch) : (emulation.supports kernel launch).isSuccess = true := by
  show (kernel.supports launch).isSuccess = true
  rw [hk.supports_eq (hm.fits harg)]
  rfl

/-- Where the evaluation of its launch succeeds a case has been launched. -/
theorem launched_of_execute (hd : device.Sound) (hk : kernel.OnlyOffsets)
    (hset : Case.setUp config r.problem r.alpha r.beta device = (.ok case, placed))
    (harg : case.arguments = .ok launch)
    (hb : Buffer.allocate kernel.workspace placed = .ok (buffer, scratch))
    (hnone : (kernel.execute launch scratch).1 = none) :
    Launched emulation config r kernel device case (kernel.execute launch scratch).2 := by
  have hsupports := supports_of_onlyOffsets hk (materialized_of_setUp hd hset) harg
  have hprepare := prepare_emulation hb launch
  have hran : emulation.run (emulation.prepare kernel launch buffer.pointer).2
      (emulation.prepareOn kernel launch buffer.pointer scratch) =
      (.success, { kernel with launch := some launch }, (kernel.execute launch scratch).2) := by
    rw [hprepare]
    show EmulatedKernel.run { kernel with launch := some launch } scratch = _
    rw [hk.run_eq, hnone]
    rfl
  have hprepares : (emulation.prepare kernel launch buffer.pointer).1.isSuccess = true := by
    rw [hprepare]
    rfl
  have hlaunched := Launched.intro hset harg hsupports hb hprepares (by rw [hran]; rfl)
  rwa [hran] at hlaunched

/-- **A launched kernel has left what it computes from the host copies.** -/
theorem Launched.contents_start
    (hl : Launched emulation config r kernel device case launched) (hd : device.Sound)
    (hown : kernel.ownDevice = none) : ∀ channel staged,
      case.operands.outputs.get? channel = some staged →
      ∃ expected, (case.fusedProduct.apply (case.start (kernel.has .keepsMaxima))).get? channel =
          some expected ∧
        staged.host.Alike expected ∧ (staged.pointer ≠ .null →
          launched.contents? staged.pointer = some (kernel.written channel expected).bytes) := by
  cases hl with
  | @intro placed scratch launch buffer hset harg _ halloc hprepares hruns =>
    have hm := materialized_of_setUp hd hset
    have hscratch : scratch.Sound := hm.holds.sound.buffer_allocate halloc
    have hprepared : (emulation.prepare kernel launch buffer.pointer).2 =
        { kernel with launch := some launch } := EmulatedKernel.prepare_of_success hprepares
    have hrun := EmulatedKernel.run_of_launch hown launch scratch
    rw [hprepared] at hruns ⊢
    change (EmulatedKernel.run { kernel with launch := some launch } scratch).1.isSuccess = true
      at hruns
    show ∀ channel staged, _ → ∃ expected, _ ∧ _ ∧ (_ →
      (EmulatedKernel.run { kernel with launch := some launch } scratch).2.2.contents? _ = _)
    by_cases hfails : kernel.has .failsRun = true
    · rw [hrun, if_pos hfails] at hruns
      cases hruns
    · rw [hrun, if_neg hfails]
      exact (hm.execute_start (hm.resident.buffer_allocate hm.holds.sound halloc) hscratch harg
        kernel).2

/-- **A launched kernel has left the outputs of the reference, `D` with its faults.** -/
theorem Launched.contents_emulation
    (hl : Launched emulation config r kernel device case launched) (hd : device.Sound)
    (hk : kernel.OnlyOffsets) : ∀ channel staged,
      case.operands.outputs.get? channel = some staged →
      ∃ expected, (case.fusedProduct.apply case.reference).get? channel = some expected ∧
        staged.host.Alike expected ∧ (staged.pointer ≠ .null →
          launched.contents? staged.pointer = some (kernel.written channel expected).bytes) := by
  have hcontents := hl.contents_start hd hk.ownDevice_eq
  rw [hk.has_eq (by simp)] at hcontents
  exact hcontents

/-- A round of a kernel without faults that comes to an outcome has evaluated the arguments. -/
theorem exists_launched_of_faultless (hd : device.Sound) (hk : kernel.Faultless)
    (hrun : (run emulation config r kernel device).1 = .ok outcome) :
    ∃ case placed scratch launch buffer,
      Materialized config r.problem r.alpha r.beta device case placed ∧
      case.arguments = .ok launch ∧
      Buffer.allocate kernel.workspace placed = .ok (buffer, scratch) ∧
      ((kernel.execute launch scratch).1 = none →
        Launched emulation config r kernel device case (kernel.execute launch scratch).2) := by
  rcases hset : Case.setUp config r.problem r.alpha r.beta device with ⟨e | case, placed⟩
  · rw [run_of_setUp_error hset] at hrun
    cases hrun
  have hm := materialized_of_setUp hd hset
  rw [run_of_setUp_ok hset] at hrun
  cases harg : case.arguments with
  | error e =>
    rw [runCase_of_arguments_error harg] at hrun
    cases hrun
  | ok launch =>
    rw [runCase_of_arguments_ok harg] at hrun
    have hsupports := supports_of_onlyOffsets hk.onlyOffsets hm harg
    cases hb : Buffer.allocate kernel.workspace placed with
    | error e =>
      rw [attempt_of_allocate_error hsupports hb] at hrun
      cases hrun
    | ok b =>
      obtain ⟨buffer, scratch⟩ := b
      exact ⟨case, placed, scratch, launch, buffer, hm, harg, hb,
        launched_of_execute hd hk.onlyOffsets hset harg hb⟩

/-- What is at the pointer of an output are its bytes, also where it is empty and has no pointer. -/
theorem contents_of_output
    (hm : Materialized config r.problem r.alpha r.beta device case placed) (hd : launched.Sound)
    {channel : Channel} {staged : Staged} (hs : case.operands.outputs.get? channel = some staged)
    {t : Tensor} (halike : staged.host.Alike t)
    (hcontents : staged.pointer ≠ .null → launched.contents? staged.pointer = some t.bytes) :
    (launched.contents? staged.pointer).getD [] = t.bytes := by
  by_cases hnull : staged.pointer = .null
  · have hsize : t.byteSize = 0 := by
      obtain ⟨-, hbuffer, hfits⟩ := hm.output hs
      rw [Tensor.byteSize, halike.size_eq, (hfits.pointer_eq_null_iff hbuffer).mp hnull,
        Nat.zero_mul]
    rw [hnull, Device.contents?_eq_none_iff.mpr hd.null_notMem]
    exact (List.eq_nil_of_length_eq_zero ((Tensor.length_bytes t).trans hsize)).symm
  · rw [hcontents hnull]
    rfl

/-- An entry of a report is that of an output of the case. -/
theorem exists_output_of_found {found : ChannelOutcome}
    (hpull : case.pullOutputs launched = (none, pulled))
    (hfound : found ∈ pulled.withReference.compare.channels) :
    ∃ staged, case.operands.outputs.get? found.channel = some staged ∧
      pulled.withReference.entry? found.channel = some found := by
  rw [Case.channels_compare] at hfound
  obtain ⟨channel, -, hentry⟩ := List.mem_filterMap.mp hfound
  obtain ⟨staged', hs'⟩ := Case.exists_output_of_entry? _ hentry
  obtain rfl := Case.channel_of_entry? _ hentry
  have hrel := (Case.pullOutputs_eq_ok hpull).2 found.channel
  rw [show pulled.operands.outputs.get? found.channel = some staged' from hs'] at hrel
  obtain ⟨staged, hs, -⟩ := exists_of_rel_of_some hrel
  exact ⟨staged, hs, hentry⟩

/-- The outputs that are copied back agree with the reference. -/
theorem count_eq_zero_of_pullOutputs
    (hm : Materialized config r.problem r.alpha r.beta device case placed) (hd : launched.Sound)
    (hexpected : ∀ channel staged, case.operands.outputs.get? channel = some staged →
      ∃ expected, (case.fusedProduct.apply case.reference).get? channel = some expected ∧
        staged.host.Alike expected ∧ (staged.pointer ≠ .null →
          launched.contents? staged.pointer = some expected.bytes))
    (hpull : case.pullOutputs launched = (none, pulled)) :
    ∀ found ∈ pulled.withReference.compare.channels, found.mismatches.count = 0 := by
  intro found hfound
  obtain ⟨staged, hs, hentry⟩ := exists_output_of_found hpull hfound
  obtain ⟨expected, actual, happly, hfound', -, halike, hbytes⟩ :=
    entry?_of_pullOutputs hm hd hpull hs
  rw [hfound', Option.some.injEq] at hentry
  rw [← hentry]
  refine Comparison.mismatches_eq_zero halike ?_
  obtain ⟨expected', happly', halike', hcontents⟩ := hexpected found.channel staged hs
  obtain rfl : expected = expected' := Option.some.inj (happly.symm.trans happly')
  rw [hbytes]
  exact (contents_of_output hm hd hs halike' hcontents).symm

/-- **No false alarm.**  A kernel without faults has no mismatches. -/
theorem emulation_agrees (hd : device.Sound) (hpending : device.pending = none)
    (hk : kernel.Faultless) (hrun : (run emulation config r kernel device).1 = .ok outcome) :
    ∃ report, outcome.report? = some report ∧
      (∀ found ∈ report.channels, found.mismatches.count = 0) ∧
      (outcome.isPassed = true ↔ report.violations = []) := by
  obtain ⟨case, placed, scratch, launch, buffer, hm, harg, hb, hlaunched⟩ :=
    exists_launched_of_faultless hd hk hrun
  have hscratch : scratch.Sound := hm.holds.sound.buffer_allocate hb
  obtain ⟨hnone, hexpected⟩ :=
    hm.execute (hm.resident.buffer_allocate hm.holds.sound hb) hscratch hk harg
  have hl := hlaunched hnone
  obtain ⟨hsound, -⟩ := hl.materialized emulation_keepsShape hd
  have hsync : (kernel.execute launch scratch).2.synchronize.2.Sound :=
    hsound.of_sameShape (Device.sameShape_synchronize _)
  have hnopending : (kernel.execute launch scratch).2.pending = none := by
    rw [EmulatedKernel.pending_execute, Device.pending_buffer_allocate hb]
    exact hm.holds.pending_eq.trans hpending
  obtain ⟨pulled, hpull⟩ : ∃ pulled, case.pullOutputs
      (kernel.execute launch scratch).2.synchronize.2 = (none, pulled) := by
    refine Case.exists_pullOutputs fun channel staged hs => ?_
    obtain ⟨expected, -, halike, hcontents⟩ := hexpected channel staged hs
    refine Staged.exists_pull (hm.output hs).2.2 fun hne => ⟨expected.bytes, hcontents hne, ?_⟩
    rw [Tensor.length_bytes, halike.byteSize_eq]
  rw [run_of_launched hl, collect_of_not_pending hnopending, hpull] at hrun
  obtain rfl : pulled.outcome = outcome := Except.ok.inj hrun
  have hzero := count_eq_zero_of_pullOutputs hm hsync hexpected hpull
  refine ⟨pulled.withReference.compare, pulled.report?_outcome, hzero, ?_⟩
  rw [Case.isPassed_outcome]
  exact Report.passed_iff hzero

/-- One product of a row by a column. -/
def dot : Round := ⟨⟨1, 1, 2, 1, Nat.one_pos⟩, 1, 0⟩

set_option maxRecDepth 2000 in
theorem emulation_agrees_dot :
    ({} : Device).Sound ∧ ({} : Device).pending = none ∧
      EmulatedKernel.Faultless { workspace := 16 } ∧
      ∃ outcome report, (run emulation tracked dot { workspace := 16 } {}).1 = .ok outcome ∧
        outcome.report? = some report ∧
        (∀ found ∈ report.channels, found.mismatches.count = 0) ∧
        (outcome.isPassed = true ↔ report.violations = []) := by
  have hd : ({} : Device).Sound := Device.sound_empty none
  have hpending : ({} : Device).pending = none := rfl
  have hk : EmulatedKernel.Faultless { workspace := 16 } := ⟨rfl, rfl⟩
  obtain ⟨pulled, hrun⟩ : ∃ pulled : Case,
      (run emulation tracked dot { workspace := 16 } {}).1 = .ok pulled.outcome := ⟨_, rfl⟩
  obtain ⟨report, hreport⟩ := emulation_agrees hd hpending hk hrun
  exact ⟨hd, hpending, hk, _, report, hrun, hreport⟩
end Round

end FusedGemm
