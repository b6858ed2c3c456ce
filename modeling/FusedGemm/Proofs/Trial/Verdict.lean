import FusedGemm.Proofs.Check.Exactness
import FusedGemm.Proofs.Gemm.FreshOutputs
import FusedGemm.Proofs.Trial.GivingBack
import FusedGemm.Proofs.Trial.PlannedOperands
import FusedGemm.Proofs.Trial.Pulling

/-!
# Verdicts on outputs

A report has one entry for each output of the plan, which compares the bytes that were copied back
with those of the reference.  With the exact comparison the entry is free of mismatches if and only
if the two are the same, whatever the kernel has written (`report_exact`).
-/

namespace FusedGemm

/-! ### The channels of a report -/

namespace Case

variable (case : Case)

/-- The entry of a channel, if it is active. -/
def entry? (channel : Channel) : Option ChannelOutcome :=
  match case.reference.get? channel, case.outputs.get? channel with
  | some expected, some actual => some ⟨channel, case.comparison.mismatches expected actual⟩
  | _, _ => none

/-- An entry of a report is that of an output. -/
theorem exists_output_of_entry? {channel : Channel} {found : ChannelOutcome}
    (h : case.entry? channel = some found) :
    ∃ staged, case.operands.outputs.get? channel = some staged := by
  unfold entry? outputs at h
  rw [Outputs.get?_map] at h
  cases hs : case.operands.outputs.get? channel with
  | some staged => exact ⟨staged, rfl⟩
  | none =>
    rw [hs] at h
    cases hreference : case.reference.get? channel with
    | none => rw [hreference] at h; cases h
    | some t => rw [hreference] at h; cases h

theorem channel_of_entry? {channel : Channel} {found : ChannelOutcome}
    (h : case.entry? channel = some found) : found.channel = channel := by
  unfold entry? at h
  split at h
  · cases h
    rfl
  · cases h

theorem channels_requirePositiveNorm (report : Report) (t : Tensor) :
    (report.requirePositiveNorm t).channels = report.channels := by
  unfold Report.requirePositiveNorm
  dsimp only
  split_ifs <;> rfl

theorem channels_requireNorm (channel : Channel) (report : Report) (t : Tensor) :
    (requireNorm channel report t).channels = report.channels := by
  unfold requireNorm
  split_ifs
  · exact channels_requirePositiveNorm report t
  · rfl

theorem channels_compareChannel (report : Report) (channel : Channel) :
    (case.compareChannel report channel).channels =
      report.channels ++ (case.entry? channel).toList := by
  unfold compareChannel entry?
  cases case.reference.get? channel with
  | none => simp
  | some expected =>
    cases case.outputs.get? channel with
    | none => simp
    | some actual => simp [Report.check, channels_requireNorm]

/-- A report has the entries of the active channels, in order. -/
theorem channels_compare : case.compare.channels = Channel.all.filterMap case.entry? := by
  have hfold : ∀ (channels : List Channel) (report : Report),
      (channels.foldl case.compareChannel report).channels =
        report.channels ++ channels.filterMap case.entry? := by
    intro channels
    induction channels with
    | nil => simp
    | cons c cs ih =>
      intro report
      rw [List.foldl_cons, ih, channels_compareChannel, List.filterMap_cons]
      cases case.entry? c <;> simp
  unfold compare
  rw [hfold, channels_requirePositiveNorm]
  rfl

/-- There is one entry for each active channel. -/
theorem filter_channels_compare (channel : Channel) :
    case.compare.channels.filter (fun o => o.channel == channel) =
      (case.entry? channel).toList := by
  have hentry : ∀ c, ∀ o ∈ case.entry? c, o.channel = c := fun c o ho => case.channel_of_entry? ho
  rw [channels_compare]
  -- of the entries only that of the channel is kept
  have hkeep : ∀ channels : List Channel, channels.Nodup →
      (channels.filterMap case.entry?).filter (fun o => o.channel == channel) =
        if channel ∈ channels then (case.entry? channel).toList else [] := by
    intro channels
    induction channels with
    | nil => simp
    | cons c cs ih =>
      intro hnodup
      rw [List.nodup_cons] at hnodup
      have hrest := ih hnodup.2
      by_cases hc : channel = c
      · subst hc
        rw [if_neg hnodup.1] at hrest
        cases he : case.entry? channel with
        | none => simpa [List.filterMap_cons, he] using hrest
        | some o => simpa [List.filterMap_cons, he, hentry channel o he] using hrest
      · cases he : case.entry? c with
        | none => simpa [List.filterMap_cons, he, hc] using hrest
        | some o =>
          have hne : o.channel ≠ channel := fun heq => hc (heq ▸ hentry c o he)
          simpa [List.filterMap_cons, he, hne, hc] using hrest
  rw [hkeep _ (by decide), if_pos (by cases channel <;> decide)]

end Case

/-! ### Active outputs -/

/-- The features by which an output is active. -/
def Capabilities.writes (c : Capabilities) : Channel → Bool
  | .d => true
  | .absMaxD => c.absMaxD
  | .biasGradient => c.biasGradient
  | .aux => c.auxOut
  | .absMaxAux => c.absMaxAux

/-- In a valid configuration nothing is both read and written. -/
theorem Config.Valid.exclusive {config : Config} (h : config.Valid) :
    (config.fusion.rowBias && config.fusion.biasGradient) = false ∧
      (config.fusion.auxIn && config.fusion.auxOut) = false := by
  have hfault : config.fault? = none := h
  unfold fault? at hfault
  split_ifs at hfault with hbias haux <;> exact ⟨by simpa using hbias, by simpa using haux⟩

/-- A valid configuration plans all the outputs that are active. -/
theorem Config.exists_entry_of_writes {config : Config} (hv : config.Valid) (p : Problem)
    {channel : Channel} (h : config.capabilities.writes channel = true) :
    ∃ entry, (config.outputPlan p).get? channel = some entry := by
  obtain ⟨hbias, haux⟩ := hv.exclusive
  cases channel with
  | d => exact ⟨_, rfl⟩
  | absMaxD =>
    have hw : config.capabilities.absMaxD = true := h
    simp [outputPlan, Outputs.get?, hw]
  | biasGradient =>
    have hw : config.capabilities.biasGradient = true := h
    have hfree : config.capabilities.rowBias = false := by
      have hw' : config.fusion.biasGradient = true := hw
      rwa [hw', Bool.and_true] at hbias
    simp [outputPlan, Outputs.get?, hw, hfree]
  | aux =>
    have hw : config.capabilities.auxOut = true := h
    have hfree : config.capabilities.auxIn = false := by
      have hw' : config.fusion.auxOut = true := hw
      rwa [hw', Bool.and_true] at haux
    simp [outputPlan, Outputs.get?, hw, hfree]
  | absMaxAux =>
    have hw : config.capabilities.absMaxAux = true := h
    simp [outputPlan, Outputs.get?, hw]

/-! ### No false pass -/

theorem Materialized.comparison_eq_exact {config : Config} {p : Problem} {x y : Float}
    {device placed : Device} {case : Case} (h : Materialized config p x y device case placed)
    (hexact : config.equality = .exact) : case.comparison = .exact := by
  have hok := h.comparison_eq
  rw [Config.comparison, hexact] at hok
  exact (Except.ok.inj hok).symm

theorem Case.report?_outcome (case : Case) :
    case.outcome.report? = some case.withReference.compare := by
  unfold outcome verify
  dsimp only
  split_ifs <;> rfl

theorem Case.isPassed_outcome (case : Case) :
    case.outcome.isPassed = case.withReference.compare.passed := by
  unfold outcome verify
  dsimp only
  cases case.withReference.compare.passed <;> rfl

namespace Round

variable {σ : Type} {kernel : Kernel σ} {config : Config} {r : Round} {s : σ}
  {device launched placed : Device} {case pulled : Case} {channel : Channel} {staged : Staged}
  {outcome : Outcome} {report : Report}

theorem Launched.materialized (h : Launched kernel config r s device case launched)
    (hk : kernel.KeepsShape) (hd : device.Sound) :
    launched.Sound ∧
      ∃ placed, Materialized config r.problem r.alpha r.beta device case placed := by
  cases h with
  | @intro placed scratch launch buffer hset _ _ halloc _ _ =>
    have hm := materialized_of_setUp hd hset
    have hsound : scratch.Sound := hm.holds.sound.buffer_allocate halloc
    have hprepared := hsound.of_sameShape (hk.prepareOn s launch buffer.pointer scratch hsound)
    exact ⟨hprepared.of_sameShape (hk.run _ _ hprepared), placed, hm⟩

/-- The entry of an output that has been copied back compares it with the reference. -/
theorem entry?_of_pullOutputs (hm : Materialized config r.problem r.alpha r.beta device case placed)
    (hsound : launched.Sound) (hpull : case.pullOutputs launched = (none, pulled))
    (hs : case.operands.outputs.get? channel = some staged) :
    ∃ expected actual : Tensor, (case.fusedProduct.apply case.reference).get? channel = some expected ∧
      pulled.withReference.entry? channel =
        some ⟨channel, case.comparison.mismatches expected actual⟩ ∧
      expected.Compact ∧ expected.Alike actual ∧
      actual.bytes = (launched.contents? staged.pointer).getD [] := by
  obtain ⟨hcompact, hbuffer, hfits⟩ := hm.output hs
  obtain ⟨hpulled, hrel⟩ := Case.pullOutputs_eq_ok hpull
  have hstaged := hrel channel
  rw [hs] at hstaged
  obtain ⟨staged', hs', hpull'⟩ := exists_of_rel_some hstaged
  obtain ⟨hhost, hlength⟩ := Staged.pull_eq_ok hpull' hsound hbuffer hfits
  obtain ⟨t, ht, halike⟩ := hm.alike_reference hs
  have happly := case.fusedProduct.alike_apply case.reference channel
  rw [ht] at happly
  obtain ⟨expected, hexpected, halike'⟩ := exists_of_rel_some happly
  have hstart := halike.trans halike'
  refine ⟨expected, staged'.host, hexpected, ?_, hcompact.of_alike hstart, ?_, ?_⟩
  · have href : pulled.withReference.reference = case.fusedProduct.apply case.reference := by
      rw [hpulled]
      rfl
    have hcomparison : pulled.withReference.comparison = case.comparison := by
      rw [hpulled]
      rfl
    have hout : pulled.withReference.outputs.get? channel = some staged'.host := by
      show (pulled.operands.outputs.map Staged.host).get? channel = _
      rw [Outputs.get?_map, hs']
      rfl
    unfold Case.entry?
    rw [href, hexpected, hout, hcomparison]
  · rw [hhost]
    exact hstart.symm.trans (Tensor.alike_withBytes _ _)
  · rw [hhost]
    exact Tensor.bytes_withBytes _ hlength

/-- With the exact comparison, the one entry of an active output tells whether it has the bytes of
the reference. -/
theorem exists_found_of_writes
    (hm : Materialized config r.problem r.alpha r.beta device case placed) (hsound : launched.Sound)
    (hexact : config.equality = .exact) (hpull : case.pullOutputs launched = (none, pulled))
    (hw : config.capabilities.writes channel = true) :
    ∃ staged expected found, case.operands.outputs.get? channel = some staged ∧
      (case.fusedProduct.apply case.reference).get? channel = some expected ∧
      pulled.withReference.compare.channels.filter (fun o => o.channel == channel) = [found] ∧
      (found.mismatches.count = 0 ↔
        (launched.contents? staged.pointer).getD [] = expected.bytes) := by
  obtain ⟨entry, hplan⟩ := Config.exists_entry_of_writes hm.valid r.problem hw
  have hrel := hm.meets.outputs.get? channel
  rw [show (config.plan r.problem r.alpha r.beta).outputs.get? channel = some entry from hplan]
    at hrel
  obtain ⟨staged, hs, -⟩ := exists_of_rel_some hrel
  obtain ⟨expected, actual, hexpected, hfound, hcompact, halike, hbytes⟩ :=
    entry?_of_pullOutputs hm hsound hpull hs
  refine ⟨staged, expected, ⟨channel, case.comparison.mismatches expected actual⟩, hs, hexpected,
    ?_, ?_⟩
  · rw [Case.filter_channels_compare, hfound]
    rfl
  · rw [hm.comparison_eq_exact hexact,
      Comparison.exact_mismatches_eq_zero_iff hcompact halike, hbytes]
    exact eq_comm

/-- **An entry of an exact report is free of mismatches if and only if the kernel has left the bytes
of the reference.** -/
theorem report_exact (hk : kernel.KeepsShape) (hd : device.Sound)
    (hexact : config.equality = .exact) (hrun : (run kernel config r s device).1 = .ok outcome)
    (hreport : outcome.report? = some report) :
    ∃ case launched, Launched kernel config r s device case launched ∧
      (∀ channel, config.capabilities.writes channel = true → ∃ staged expected found,
        case.operands.outputs.get? channel = some staged ∧
        (case.fusedProduct.apply case.reference).get? channel = some expected ∧
        report.channels.filter (fun o => o.channel == channel) = [found] ∧
        (found.mismatches.count = 0 ↔
          (launched.contents? staged.pointer).getD [] = expected.bytes)) ∧
      (outcome.isPassed = true → ∀ channel, config.capabilities.writes channel = true →
        ∃ staged expected, case.operands.outputs.get? channel = some staged ∧
          (case.fusedProduct.apply case.reference).get? channel = some expected ∧
          (launched.contents? staged.pointer).getD [] = expected.bytes) := by
  obtain ⟨case, launched, hl⟩ := exists_launched_of_report hrun hreport
  obtain ⟨hsound, placed, hm⟩ := hl.materialized hk hd
  rw [run_of_launched hl] at hrun
  obtain ⟨pulled, hpull, rfl⟩ := exists_pulled_of_report hrun hreport
  rw [Case.report?_outcome, Option.some.injEq] at hreport
  have hsync : launched.synchronize.2.Sound :=
    hsound.of_sameShape (Device.sameShape_synchronize launched)
  have hentry := fun channel (hw : config.capabilities.writes channel = true) =>
    exists_found_of_writes hm hsync hexact hpull hw
  rw [hreport] at hentry
  refine ⟨case, launched, hl, hentry, fun hpassed channel hw => ?_⟩
  obtain ⟨staged, expected, found, hs, hexpected, hfilter, hzero⟩ := hentry channel hw
  refine ⟨staged, expected, hs, hexpected, hzero.mp ?_⟩
  rw [Case.isPassed_outcome, hreport] at hpassed
  have hmem : found ∈ report.channels.filter (fun o => o.channel == channel) := by
    rw [hfilter]
    exact List.mem_singleton_self found
  have hall := (Bool.and_eq_true_iff.mp hpassed).2
  have hfound := List.all_eq_true.mp hall found (List.mem_filter.mp hmem).1
  exact beq_iff_eq.mp hfound

/-- An epilogue with three outputs. -/
def tracked : Config where
  typeD := .f8e4m3
  fusion := { rowBias := true, auxOut := true, absMax := true }

/-- Two products of a 2 × 2 by a 2 × 3 matrix. -/
def twoBatches : Round := ⟨⟨2, 3, 2, 2, by decide⟩, 1, 0⟩

theorem report_exact_wiping :
    Kernel.wiping.KeepsShape ∧ ({} : Device).Sound ∧ tracked.equality = .exact ∧
      ∃ outcome report case launched staged expected found,
        (run Kernel.wiping tracked twoBatches () {}).1 = .ok outcome ∧
        outcome.report? = some report ∧
        Launched Kernel.wiping tracked twoBatches () {} case launched ∧
        case.operands.outputs.aux = some staged ∧
        (case.fusedProduct.apply case.reference).aux = some expected ∧
        report.channels.filter (fun o => o.channel == .aux) = [found] ∧
        (found.mismatches.count = 0 ↔
          (launched.contents? staged.pointer).getD [] = expected.bytes) := by
  have hk := Kernel.wiping_keepsShape
  have hd : ({} : Device).Sound := Device.sound_empty none
  have hexact : tracked.equality = .exact := rfl
  obtain ⟨pulled, hrun⟩ : ∃ pulled : Case,
      (run Kernel.wiping tracked twoBatches () {}).1 = .ok pulled.outcome := ⟨_, rfl⟩
  have hreport := pulled.report?_outcome
  obtain ⟨case, launched, hl, hentry, -⟩ := report_exact hk hd hexact hrun hreport
  obtain ⟨staged, expected, found, hs, hexpected, hfilter, hzero⟩ := hentry .aux rfl
  exact ⟨hk, hd, hexact, _, _, case, launched, staged, expected, found, hrun, hreport, hl, hs,
    hexpected, hfilter, hzero⟩

end Round

end FusedGemm
