import FusedGemm.Proofs.Numeric.Squares
import FusedGemm.Proofs.Tensor.Bounds
import FusedGemm.Trial.Case

/-!
# Norms that say nothing

A comparison of zeros with zeros, or of NaN with NaN, says nothing about a kernel.  A tensor is
`Meaningless` if all its elements are zero, if it has none, or if one of them is NaN; its norm is
positive if and only if it is not (`Tensor.zero_lt_norm_iff`).  So a report flags these tensors
and no others (`Report.flags_meaningless`), and whatever is added to it later it does not pass
(`Report.Continues`).

A norm of infinity is positive.  A tensor with an infinite element and no NaN is not flagged,
though the violations of a report are meant for norms that are zero or not finite
(`Report.passed_endless`).
-/

namespace FusedGemm

/-! ### Norms of tensors -/

namespace Tensor

variable {t : Tensor}

/-- All elements are zero, as where there are none, or one of them is NaN. -/
def Meaningless (t : Tensor) : Prop :=
  (∀ c ∈ t.extent.coords, (t.read c).Vanishes) ∨ ∃ c ∈ t.extent.coords, ¬ (t.read c).NoNaN

instance (t : Tensor) : Decidable t.Meaningless := inferInstanceAs (Decidable (_ ∨ _))

/-- **The norm is positive where it says something.** -/
theorem zero_lt_norm_iff : 0.0 < t.norm ↔ ¬ t.Meaningless := by
  unfold norm Meaningless
  by_cases hnan : ∃ c ∈ t.extent.coords, ¬ (t.read c).NoNaN
  · refine iff_of_false ?_ (not_not_intro (Or.inr hnan))
    obtain ⟨c, hc, hread⟩ := hnan
    exact not_lt_of_isNaN _ (isNaN_sqrt (isNaN_foldl_add
      (Or.inr ⟨c, hc, ComplexFloat.isNaN_normSquared hread⟩)))
  · have hread : ∀ c ∈ t.extent.coords, (t.read c).NoNaN := by
      simpa only [not_exists, not_and, not_not] using hnan
    have hzero : ∀ c ∈ t.extent.coords, (code (t.read c).normSquared = 0 ↔ (t.read c).Vanishes) :=
      fun c hc => t.type.code_normSquared_eq_zero_iff (hread c hc)
    rw [zero_lt_sqrt_sum_iff fun c hc => (hread c hc).unsigned_normSquared, or_iff_left hnan]
    simp only [not_forall, exists_prop, ne_eq]
    exact exists_congr fun c => and_congr_right fun hc => not_congr (hzero c hc)

end Tensor

/-! ### Reports -/

namespace Report

variable {report later : Report} {t : Tensor}

/-- The violations that tensors cause whose norms are required to be positive. -/
def violationsOf (ts : List Tensor) : List NormViolation :=
  (ts.filter fun t => t.Meaningless).map fun t => ⟨t.name, t.norm⟩

theorem violationsOf_append (ts us : List Tensor) :
    violationsOf (ts ++ us) = violationsOf ts ++ violationsOf us := by
  unfold violationsOf
  rw [List.filter_append, List.map_append]

theorem requirePositiveNorm_of_meaningless (h : t.Meaningless) :
    report.requirePositiveNorm t =
      { report with violations := report.violations ++ [⟨t.name, t.norm⟩] } :=
  if_neg fun hpos => Tensor.zero_lt_norm_iff.mp hpos h

theorem requirePositiveNorm_of_not_meaningless (h : ¬ t.Meaningless) :
    report.requirePositiveNorm t = report :=
  if_pos (Tensor.zero_lt_norm_iff.mpr h)

theorem violations_requirePositiveNorm (report : Report) (t : Tensor) :
    (report.requirePositiveNorm t).violations = report.violations ++ violationsOf [t] := by
  unfold violationsOf
  by_cases h : t.Meaningless
  · rw [requirePositiveNorm_of_meaningless h, List.filter_singleton, decide_eq_true h]
    rfl
  · rw [requirePositiveNorm_of_not_meaningless h, List.filter_singleton, decide_eq_false h]
    exact (List.append_nil _).symm

/-- What a report becomes as channels are compared and norms required to be positive. -/
inductive Continues (report : Report) : Report → Prop
  | refl : Continues report report
  | check {later : Report} (channel : Channel) (comparison : Comparison)
      (expected actual : Tensor) :
    Continues report later → Continues report (later.check channel comparison expected actual)
  | norm {later : Report} (t : Tensor) :
    Continues report later → Continues report (later.requirePositiveNorm t)

/-- Violations are never taken back. -/
theorem Continues.violations_prefix (h : report.Continues later) :
    report.violations <+: later.violations := by
  induction h with
  | refl => exact List.prefix_rfl
  | check channel comparison expected actual _ ih => exact ih
  | norm t _ ih =>
    rw [violations_requirePositiveNorm]
    exact ih.trans (List.prefix_append _ _)

theorem not_passed_of_mem {v : NormViolation} (h : v ∈ report.violations) :
    report.passed = false := by
  unfold passed
  rw [List.isEmpty_eq_false_iff_exists_mem.mpr ⟨v, h⟩, Bool.false_and]

end Report

/-! ### Comparisons of cases -/

namespace Case

open Report

variable (case : Case)

/-- The tensors of a channel whose norms have to be positive, if it is compared. -/
def measuredOn (channel : Channel) : List Tensor :=
  match case.reference.get? channel, case.outputs.get? channel with
  | some expected, some actual => [actual, expected].filter fun t => expectsNorm t channel
  | _, _ => []

/-- All tensors whose norms have to be positive. -/
def measured : List Tensor := case.operands.c.host :: Channel.all.flatMap case.measuredOn

theorem violations_requireNorm (channel : Channel) (report : Report) (t : Tensor) :
    (requireNorm channel report t).violations =
      report.violations ++ violationsOf ([t].filter fun t => expectsNorm t channel) := by
  unfold requireNorm
  rw [List.filter_singleton]
  split_ifs with h
  · rw [violations_requirePositiveNorm, h]
    rfl
  · rw [Bool.not_eq_true] at h
    rw [h]
    exact (List.append_nil _).symm

theorem violations_compareChannel (report : Report) (channel : Channel) :
    (case.compareChannel report channel).violations =
      report.violations ++ violationsOf (case.measuredOn channel) := by
  unfold compareChannel measuredOn
  cases case.reference.get? channel with
  | none => exact (List.append_nil _).symm
  | some expected =>
    cases case.outputs.get? channel with
    | none => exact (List.append_nil _).symm
    | some actual =>
      show (requireNorm channel (requireNorm channel report actual) expected).violations = _
      rw [violations_requireNorm, violations_requireNorm, List.append_assoc,
        ← violationsOf_append, ← List.filter_append]
      rfl

/-- **A comparison flags the tensors that say nothing**, in the order in which it looks at them. -/
theorem violations_compare : case.compare.violations = violationsOf case.measured := by
  have hfold : ∀ (channels : List Channel) (report : Report),
      (channels.foldl case.compareChannel report).violations =
        report.violations ++ violationsOf (channels.flatMap case.measuredOn) := by
    intro channels
    induction channels with
    | nil => exact fun report => (List.append_nil _).symm
    | cons channel channels ih =>
      intro report
      rw [List.foldl_cons, ih, violations_compareChannel, List.append_assoc, ← violationsOf_append,
        List.flatMap_cons]
  unfold compare measured
  rw [hfold, violations_requirePositiveNorm, ← List.singleton_append (l := List.flatMap _ _),
    violationsOf_append]
  rfl

end Case

/-! ### Flagged norms -/

namespace Report

/-- **Norms that say nothing are flagged.**  For a tensor whose elements are in its storage, all of
them zero or one of them NaN, a violation is recorded, and the report never passes again; other
tensors leave the report as it is.  So a comparison flags just the tensors of that kind among those
it measures. -/
theorem flags_meaningless (report : Report) {t : Tensor} (ht : t.Covers t.extent) :
    t.normChecked? = some t.norm ∧
      (t.Meaningless →
        (report.requirePositiveNorm t).violations = report.violations ++ [⟨t.name, t.norm⟩] ∧
          (report.requirePositiveNorm t).channels = report.channels ∧
          ∀ later, (report.requirePositiveNorm t).Continues later → later.passed = false) ∧
      (¬ t.Meaningless → report.requirePositiveNorm t = report) ∧
      ∀ case : Case, case.compare.violations = violationsOf case.measured ∧
        ((∃ u ∈ case.measured, u.Meaningless) → case.compare.passed = false) := by
  refine ⟨Tensor.normChecked?_eq_some ht, fun h => ?_, requirePositiveNorm_of_not_meaningless,
    fun case => ⟨case.violations_compare, ?_⟩⟩
  · rw [requirePositiveNorm_of_meaningless h]
    refine ⟨rfl, rfl, fun later hlater => ?_⟩
    exact not_passed_of_mem (hlater.violations_prefix.subset
      (List.mem_append_right _ (List.mem_singleton_self _)))
  · rintro ⟨u, hu, h⟩
    refine not_passed_of_mem (v := ⟨u.name, u.norm⟩) ?_
    rw [case.violations_compare]
    exact List.mem_map.mpr ⟨u, List.mem_filter.mpr ⟨hu, decide_eq_true h⟩, rfl⟩

/-- A complex vector of a zero and a NaN. -/
def stray : Tensor := (Tensor.zeros "T" .c32 (.vector 2)).write ⟨1, 0, 0⟩ ⟨0, 0 / 0⟩

theorem flags_meaningless_stray : stray.Covers stray.extent ∧ stray.Meaningless ∧
    stray.normChecked? = some stray.norm ∧
    ∀ later, (requirePositiveNorm {} stray).Continues later → later.passed = false := by
  have hcovers : stray.Covers stray.extent := by decide
  have hmeaningless : stray.Meaningless := by decide +kernel
  obtain ⟨hnorm, hflagged, -⟩ := flags_meaningless {} hcovers
  exact ⟨hcovers, hmeaningless, hnorm, (hflagged hmeaningless).2.2⟩

/-- A vector of one infinite element. -/
def endless : Tensor := (Tensor.zeros "T" .f32 (.vector 1)).fill infinity

/-- Its norm is infinity and passes for a positive one. -/
theorem passed_endless : endless.Covers endless.extent ∧
    (∃ c ∈ endless.extent.coords, (endless.read c).re.isInf = true) ∧ endless.norm = infinity ∧
    (requirePositiveNorm {} endless).violations = [] ∧
    (requirePositiveNorm {} endless).passed = true := by
  decide +kernel

end Report

end FusedGemm
