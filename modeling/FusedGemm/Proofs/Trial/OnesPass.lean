import FusedGemm.Proofs.Trial.Isolation
import FusedGemm.Proofs.Trial.OnesPlan

/-!
# Trials of ones pass

A report passes if each output agrees with the reference and no norm that has to be positive is
missing (`Case.passed_compare`).  A kernel without faults computes the reference, so that only the
norms of the reference count (`Case.ComputedBy.passed`).  In a trial of ones these are positive
(`Materialized.norm_pos`), and so the trial passes (`Round.ones_passed`).
-/

namespace FusedGemm

/-! ### Reports without violations -/

namespace Case

variable {case : Case} {channel : Channel} {report : Report} {t : Tensor}

theorem requireNorm_of_pos (h : expectsNorm t channel = true → 0.0 < t.norm) :
    requireNorm channel report t = report := by
  unfold requireNorm
  split_ifs with hexpects
  · exact if_pos (h hexpects)
  · rfl

/-- A channel that agrees and has its norms lets a report pass. -/
theorem passed_compareChannel (hreport : report.passed = true)
    (h : ∀ expected actual, case.reference.get? channel = some expected →
      case.outputs.get? channel = some actual →
      (case.comparison.mismatches expected actual).count = 0 ∧
        (expectsNorm expected channel = true → 0.0 < expected.norm) ∧
        (expectsNorm actual channel = true → 0.0 < actual.norm)) :
    (case.compareChannel report channel).passed = true := by
  unfold compareChannel
  split
  · next expected actual hexpected hactual =>
    obtain ⟨hcount, hnorm, hnorm'⟩ := h expected actual hexpected hactual
    rw [requireNorm_of_pos hnorm', requireNorm_of_pos hnorm]
    unfold Report.passed Report.check at *
    rw [Bool.and_eq_true] at hreport ⊢
    refine ⟨hreport.1, ?_⟩
    rw [List.all_append, hreport.2, Bool.true_and, List.all_cons, List.all_nil, Bool.and_true]
    exact beq_iff_eq.mpr hcount
  · exact hreport

/-- **A report passes where all channels agree and all norms are there.** -/
theorem passed_compare (hc : 0.0 < case.operands.c.host.norm)
    (h : ∀ channel expected actual, case.reference.get? channel = some expected →
      case.outputs.get? channel = some actual →
      (case.comparison.mismatches expected actual).count = 0 ∧
        (expectsNorm expected channel = true → 0.0 < expected.norm) ∧
        (expectsNorm actual channel = true → 0.0 < actual.norm)) :
    case.compare.passed = true := by
  have hfold : ∀ (channels : List Channel) {report : Report}, report.passed = true →
      (channels.foldl case.compareChannel report).passed = true := by
    intro channels
    induction channels with
    | nil => exact fun hreport => hreport
    | cons channel channels ih =>
      exact fun hreport => ih (passed_compareChannel hreport (h channel))
  refine hfold Channel.all ?_
  unfold Report.requirePositiveNorm
  rw [if_pos hc]
  rfl

end Case

/-! ### Kernels without faults -/

/-- A tensor with the bytes of one that is alike differs from it in name only. -/
theorem Tensor.withBytes_of_alike {t u : Tensor} (h : t.Alike u) :
    t.withBytes u.bytes = u.renamed t.name := by
  obtain ⟨codes, name, hsize, rfl⟩ := h.exists_codes
  have hread : t.withBytes (t.withCodes codes).bytes = t.withCodes codes := by
    have hsame := withBytes_bytes (t.withCodes codes)
    unfold withBytes at hsame ⊢
    rw [← hsize]
    exact hsame
  exact hread

/-- A kernel without faults computes the reference. -/
theorem EmulatedKernel.Faultless.results_eq {kernel : EmulatedKernel} (hk : kernel.Faultless)
    (case : Case) : kernel.results case = case.fusedProduct.apply case.reference := by
  unfold results outputs
  rw [hk.onlyOffsets.has_eq (by simp), hk.faults_eq]
  rfl

section Computed
variable {config : Config} {p : Problem} {x y : Float} {device placed : Device}
  {case pulled : Case} {kernel : EmulatedKernel}

/-- **Where a kernel without faults has computed the outputs, only norms can fail the report.** -/
theorem Case.ComputedBy.passed (hm : Materialized config p x y device case placed)
    (hk : kernel.Faultless) (hcomputed : case.ComputedBy kernel pulled)
    (hc : 0.0 < case.operands.c.host.norm)
    (hnorm : ∀ channel expected, (case.fusedProduct.apply case.reference).get? channel =
      some expected → expectsNorm expected channel = true → 0.0 < expected.norm) :
    pulled.withReference.compare.passed = true := by
  have hreference : pulled.withReference.reference = case.fusedProduct.apply case.reference := by
    rw [hcomputed.case_eq]
    rfl
  have hc' : 0.0 < pulled.withReference.operands.c.host.norm := by
    rw [hcomputed.case_eq]
    exact hc
  refine passed_compare hc' fun channel expected actual hexpected hactual => ?_
  rw [hreference] at hexpected
  change (pulled.operands.outputs.map Staged.host).get? channel = some actual at hactual
  rw [Outputs.get?_map, Option.map_eq_some_iff] at hactual
  obtain ⟨staged', hs', rfl⟩ := hactual
  have hrel := hcomputed.outputs channel
  rw [hs'] at hrel
  obtain ⟨staged, hs, -, t, ht, hhost⟩ := exists_of_rel_of_some hrel
  rw [hk.results_eq, hexpected, Option.some.injEq] at ht
  subst ht
  have halike : staged.host.Alike expected := by
    obtain ⟨start, hstart, halike⟩ := hm.alike_reference hs
    have happly := case.fusedProduct.alike_apply case.reference channel
    rw [hstart, hexpected] at happly
    cases happly with
    | some halike' => exact halike.trans halike'
  rw [hhost, Tensor.withBytes_of_alike halike]
  refine ⟨Comparison.mismatches_eq_zero ⟨rfl, rfl, rfl⟩ rfl, hnorm channel expected hexpected, ?_⟩
  exact hnorm channel expected hexpected

end Computed

/-! ### The norms of ones -/

namespace Materialized

variable {config : Config} {p : Problem} {device placed : Device} {case : Case} {staged : Staged}

/-- An auxiliary tensor is written only where none is read. -/
theorem auxIn_eq_none {x y : Float} (h : Materialized config p x y device case placed)
    (hs : case.operands.outputs.aux = some staged) : config.fusion.auxOut = true ∧
      case.operands.auxIn = none ∧ staged.host.type = config.typeAux := by
  have hrel := h.meets.outputs.aux
  rw [hs] at hrel
  obtain ⟨entry, hentry, placement, hok, hhost, -⟩ := exists_of_rel_of_some hrel
  simp only [Config.plan, Config.outputPlan, Option.ite_none_right_eq_some] at hentry
  obtain ⟨hactive, hentry⟩ := hentry
  cases hentry
  obtain ⟨t, ht, rfl⟩ := exists_of_placement_eq_ok hok
  rw [Bool.and_eq_true, Bool.not_eq_true'] at hactive
  refine ⟨hactive.1, ?_, hhost ▸ (Tensor.packed_of_eq_ok ht).type_eq⟩
  have hrel' := h.meets.auxIn
  have hplan : (config.plan p x y).auxIn = none := by
    show (if config.capabilities.auxIn then _ else none) = none
    rw [hactive.2]
    rfl
  rw [hplan] at hrel'
  exact eq_none_of_rel hrel'

theorem norm_addend_pos (h : Materialized config p 1 1 device case placed)
    (hones : config.FillsOnes) (hm : 0 < p.m) (hn : 0 < p.n) : 0.0 < case.operands.c.host.norm := by
  have hpacked := h.addend.1
  have hholds := (h.ones_c hones).holdsFromOne (hpacked.compact.covers rfl)
  refine hholds.norm_pos (Extent.count_pos_of_mem (c := .origin) ?_)
  show Coord.origin ∈ case.operands.c.host.extent
  rw [hpacked.extent_eq]
  exact ⟨hm, hn, p.batch_pos⟩

section Ones
variable (h : Materialized config p 1 1 device case placed) (hones : config.FillsOnes)
  (hactivation : config.activation = .identity ∨ config.activation = .relu)
  (hfinite : config.BetaOverflows p → ¬ config.WritesComplex)
include h hones hfinite

theorem betaBounded_of_writesComplex (hcomplex : config.WritesComplex) :
    case.fusedProduct.BetaBounded p.outputExtent :=
  h.betaBounded hones fun hoverflows => hfinite hoverflows hcomplex

include hactivation

theorem holdsFromOne_d : (case.fusedProduct.apply case.reference).d.HoldsFromOne := by
  have hshaped := h.shaped
  obtain ⟨staged, hs, hstaged⟩ :=
    h.exists_output_of_reference (show case.reference.get? .d = some case.reference.d from rfl)
  obtain rfl : case.operands.outputs.d = staged := Option.some.inj hs
  refine (h.onOnes hones hactivation).holdsFromOne_d hshaped.extent_d hshaped.covers_d
    hshaped.separates_d fun hcomplex => h.betaBounded_of_writesComplex hones hfinite (Or.inl ?_)
  rwa [hstaged.type_eq, h.product.type_eq] at hcomplex

theorem holdsFromOne_aux {expected : Tensor}
    (hexpected : (case.fusedProduct.apply case.reference).aux = some expected) :
    expected.HoldsFromOne := by
  have hshaped := h.shaped
  obtain ⟨start, hstart, hexpected⟩ := Option.map_eq_some_iff.mp hexpected
  obtain ⟨staged, hs, hstaged⟩ :=
    h.exists_output_of_reference (show case.reference.get? .aux = some start from hstart)
  obtain ⟨hactive, hin, htype⟩ := h.auxIn_eq_none hs
  have hnone : case.fusedProduct.auxIn = none := congrArg (Option.map Staged.host) hin
  rw [hnone, hshaped.extent_d] at hexpected
  rw [← hexpected]
  refine (h.onOnes hones hactivation).holdsFromOne_aux (hshaped.extent_aux start hstart)
    (hshaped.covers_aux start hstart) (hshaped.separates_aux start hstart) fun hcomplex =>
      h.betaBounded_of_writesComplex hones hfinite (Or.inr (Or.inl ⟨hactive, ?_⟩))
  rwa [hstaged.type_eq, htype] at hcomplex

theorem holdsFromOne_gradient (hn : 0 < p.n) {expected : Tensor}
    (hgradient : config.fusion.biasGradient = true → config.fusion.auxIn = true)
    (hexpected : (case.fusedProduct.apply case.reference).biasGradient = some expected) :
    expected.HoldsFromOne := by
  obtain ⟨start, hstart, hexpected⟩ := Option.map_eq_some_iff.mp hexpected
  have hget : case.reference.get? .biasGradient = some start := hstart
  obtain ⟨staged, hs, -⟩ := h.exists_output_of_reference hget
  have hactive : config.fusion.biasGradient = true := by
    have hwrites := h.isSome_output .biasGradient
    rw [hs] at hwrites
    exact hwrites.symm
  have hin : case.fusedProduct.auxIn.isSome = true := by
    show (case.operands.auxIn.map Staged.host).isSome = true
    rw [Option.isSome_map]
    exact h.isSome_auxIn.trans (hgradient hactive)
  have hzeros : start =
      .zeros ("reference " ++ "dBias") config.typeBias (.vector p.outputExtent.rows) := by
    rw [h.reference_eq, Config.referenceOutputs, Outputs.get?_set_of_ne (by decide),
      Outputs.get?_map, hs, Option.map_some, Option.some.injEq, h.biasGradient hs] at hget
    exact hget.symm
  rw [h.shaped.extent_d, hzeros] at hexpected
  rw [← hexpected]
  exact (h.onOnes hones hactivation).holdsFromOne_gradient hin hn p.batch_pos fun hcomplex =>
    h.betaBounded_of_writesComplex hones hfinite (Or.inr (Or.inr ⟨hactive, hcomplex⟩))

/-- **In a trial of ones the norms of the reference are positive.** -/
theorem norm_pos (hm : 0 < p.m) (hn : 0 < p.n)
    (hgradient : config.fusion.biasGradient = true → config.fusion.auxIn = true)
    {channel : Channel} {expected : Tensor}
    (hexpected : (case.fusedProduct.apply case.reference).get? channel = some expected)
    (hexpects : Case.expectsNorm expected channel = true) : 0.0 < expected.norm := by
  have hextent : expected.extent = channel.extent p := by
    have halike := case.fusedProduct.alike_apply case.reference channel
    rw [hexpected] at halike
    obtain ⟨start, hstart, halike⟩ := exists_of_rel_of_some halike
    obtain ⟨staged, hs, hstaged⟩ := h.exists_output_of_reference hstart
    exact (hstaged.trans halike).extent_eq.trans (h.output_shape hs).1
  have hholds : expected.HoldsFromOne := by
    cases channel with
    | absMaxD | absMaxAux => cases hexpects
    | d =>
      cases Option.some.inj hexpected
      exact h.holdsFromOne_d hones hactivation hfinite
    | aux => exact h.holdsFromOne_aux hones hactivation hfinite hexpected
    | biasGradient =>
      exact h.holdsFromOne_gradient hones hactivation hfinite hn hgradient hexpected
  refine hholds.norm_pos (Extent.count_pos_of_mem (c := .origin) ?_)
  rw [hextent]
  cases channel with
  | d | aux => exact ⟨hm, hn, p.batch_pos⟩
  | biasGradient => exact ⟨hm, Nat.one_pos, Nat.one_pos⟩
  | absMaxD | absMaxAux => cases hexpects

end Ones

end Materialized

/-! ### Trials -/

namespace Round

/-- **A trial of ones passes.**  Let everything be filled with ones, alpha and beta be one, and the
activation be the identity or the one that cuts off negative numbers.  Then a kernel without faults
passes on every problem with rows and columns for which the case and the kernel's scratch buffer fit
on the device, if the gradient of a bias is only asked for in a backward pass, and complex numbers
are not written with an infinite beta. -/
theorem ones_passed {config : Config} {r : Round} {kernel : EmulatedKernel}
    {device placed : Device} {case : Case} {granted : Buffer × Device} (hd : device.Sound)
    (hpending : device.pending = none) (hk : kernel.Faultless) (hones : config.FillsOnes)
    (hactivation : config.activation = .identity ∨ config.activation = .relu)
    (halpha : r.alpha = 1) (hbeta : r.beta = 1) (hm : 0 < r.problem.m) (hn : 0 < r.problem.n)
    (hgradient : config.fusion.biasGradient = true → config.fusion.auxIn = true)
    (hfinite : config.BetaOverflows r.problem → ¬ config.WritesComplex)
    (hset : Case.setUp config r.problem r.alpha r.beta device = (.ok case, placed))
    (hb : Buffer.allocate kernel.workspace placed = .ok granted) :
    ∃ report, (run emulation config r kernel device).1 = .ok (.passed report) := by
  have hmade := materialized_of_setUp hd hset
  obtain ⟨launch, harg⟩ := hmade.exists_arguments fun hrows => hm.ne' hrows.2
  obtain ⟨buffer, scratch⟩ := granted
  obtain ⟨hnone, pulled, hcomputed, hcollect⟩ :=
    exists_computed_of_emulation hmade harg hb (hmade.holds.pending_eq.trans hpending)
  have hsupports := supports_of_onlyOffsets hk.onlyOffsets hmade harg
  have hfails : kernel.has .failsRun = false := hk.onlyOffsets.has_eq (by simp)
  rw [halpha, hbeta] at hmade
  have hc := hmade.norm_addend_pos hones hm hn
  have hpassed : pulled.withReference.compare.passed = true :=
    hcomputed.passed hmade hk hc fun channel expected hexpected =>
      hmade.norm_pos hones hactivation hfinite hm hn hgradient hexpected
  refine ⟨pulled.withReference.compare, ?_⟩
  rw [run_of_setUp_ok hset, runCase_of_arguments_ok harg,
    attempt_of_execute hsupports hb hk.ownDevice_eq hfails hnone, hcollect]
  unfold Case.outcome Case.verify
  dsimp only
  rw [if_pos hpassed]

/-- An epilogue that is filled with ones throughout. -/
def filledWithOnes (fusion : Fusion) : Config where
  fusion := fusion
  fillA := .ones
  fillB := .ones
  fillC := .ones
  fillScale := .ones
  fillBias := .ones

/-- A row times two columns. -/
def twoColumns : Round := ⟨⟨1, 2, 2, 1, Nat.one_pos⟩, 1, 1⟩

/-- A backward pass with a gradient. -/
def backward : Fusion := { biasGradient := true, auxIn := true, activation := .relu }

set_option maxRecDepth 2000 in
theorem ones_passed_backward :
    ({} : Device).Sound ∧ ({} : Device).pending = none ∧
      EmulatedKernel.Faultless { workspace := 16 } ∧ (filledWithOnes backward).FillsOnes ∧
      ¬ (filledWithOnes backward).BetaOverflows twoColumns.problem ∧
      ∃ case placed granted report,
        Case.setUp (filledWithOnes backward) twoColumns.problem 1 1 {} = (.ok case, placed) ∧
        Buffer.allocate 16 placed = .ok granted ∧
        (run emulation (filledWithOnes backward) twoColumns { workspace := 16 } {}).1 =
          .ok (.passed report) := by
  have hd : ({} : Device).Sound := Device.sound_empty none
  have hk : EmulatedKernel.Faultless { workspace := 16 } := ⟨rfl, rfl⟩
  have hones : (filledWithOnes backward).FillsOnes := ⟨rfl, rfl, rfl, rfl, rfl⟩
  have hfinite : ¬ (filledWithOnes backward).BetaOverflows twoColumns.problem := by decide
  obtain ⟨case, placed, hset⟩ : ∃ case placed,
      Case.setUp (filledWithOnes backward) twoColumns.problem 1 1 {} = (.ok case, placed) :=
    ⟨_, _, rfl⟩
  obtain ⟨granted, hb⟩ : ∃ granted, Buffer.allocate 16 placed = .ok granted := by
    cases hset
    exact ⟨_, rfl⟩
  obtain ⟨report, hpassed⟩ := ones_passed hd rfl hk hones (Or.inr rfl) rfl rfl Nat.one_pos
    Nat.two_pos (fun _ => rfl) (fun hoverflows => absurd hoverflows hfinite) hset hb
  exact ⟨hd, rfl, hk, hones, hfinite, case, placed, granted, report, hset, hb, hpassed⟩

/-- In a forward pass there is no gradient, and its norm, which has to be positive, is zero. -/
theorem ones_failed_forward :
    (filledWithOnes { biasGradient := true }).Valid ∧
      (filledWithOnes { biasGradient := true }).FillsOnes ∧
      (filledWithOnes { biasGradient := true }).activation = .identity ∧
      (Case.setUp (filledWithOnes { biasGradient := true }) twoColumns.problem 1 1
        {}).1.toOption.isSome = true ∧
      (run emulation (filledWithOnes { biasGradient := true }) twoColumns {}
        {}).1.toOption.map Outcome.isPassed = some false := by
  refine ⟨by decide, ⟨rfl, rfl, rfl, rfl, rfl⟩, rfl, rfl, ?_⟩
  decide +kernel

end Round

end FusedGemm
