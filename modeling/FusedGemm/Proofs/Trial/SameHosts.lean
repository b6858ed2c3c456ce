import FusedGemm.Proofs.Trial.Twins
import FusedGemm.Trial.Round

/-!
# Cases with the same host copies

What a case evaluates, compares and dumps are its host copies; where these are on a device does not
matter.  So cases with the same host copies have the same fused product (`fusedProduct_eq`), the same
report (`compare_eq`) and the same outcome (`outcome_eq`).
-/

namespace FusedGemm

namespace Case.SameHosts

variable {case case' : Case} (h : case.SameHosts case')
include h

theorem outputs_eq : case'.outputs = case.outputs :=
  Outputs.map_eq_of_related (fun _ _ hs => hs.host_eq) h.operands.outputs

/-! ### The fused product -/

theorem scalarSource_eq : case'.scalarSource = case.scalarSource := by
  funext t
  unfold scalarSource scalarView
  rw [h.config_eq, h.problem_eq]

omit h in
theorem factorOf_eq {staged staged' : Staged} (hs : staged.SameHost staged') :
    factorOf staged' = factorOf staged := by
  unfold factorOf
  rw [hs.host_eq]

theorem factors_eq : case'.factors = case.factors :=
  map_eq_of_rel (fun s s' hs => by
    rw [factorOf_eq hs.a, factorOf_eq hs.b, factorOf_eq hs.c, factorOf_eq hs.d,
      map_eq_of_rel (f := factorOf) (fun _ _ => factorOf_eq) hs.aux]) h.operands.scale

theorem fusedProduct_eq : case'.fusedProduct = case.fusedProduct := by
  unfold fusedProduct
  rw [h.scalarSource_eq, h.factors_eq, h.config_eq, h.operands.a.host_eq, h.operands.b.host_eq,
    h.operands.c.host_eq, h.operands.alpha.host_eq, h.operands.beta.host_eq,
    map_eq_of_rel (fun _ _ hs => Staged.SameHost.host_eq hs) h.operands.bias,
    map_eq_of_rel (fun _ _ hs => Staged.SameHost.host_eq hs) h.operands.auxIn]

theorem withReference : case.withReference.SameHosts case'.withReference :=
  { h with
    reference_eq := by
      unfold Case.withReference
      rw [h.fusedProduct_eq, h.reference_eq] }

/-! ### The outcome -/

theorem compare_eq : case'.compare = case.compare := by
  have hchannel : case'.compareChannel = case.compareChannel := by
    funext report channel
    unfold compareChannel
    rw [h.reference_eq, h.outputs_eq, h.comparison_eq]
  unfold compare
  rw [hchannel, h.operands.c.host_eq]

theorem factorText_eq : case'.factorText = case.factorText := by
  have hscale := h.operands.scale
  unfold factorText
  cases hs : case.operands.scale with
  | none =>
    rw [hs] at hscale
    rw [eq_none_of_rel hscale]
  | some s =>
    rw [hs] at hscale
    obtain ⟨s', hs', hrel⟩ := exists_of_rel_some hscale
    rw [hs']
    dsimp only
    rw [factorOf_eq hrel.a, factorOf_eq hrel.b, factorOf_eq hrel.c]

theorem absMaxText_eq (channel : Channel) (name : String) {factor factor' : Option Staged}
    (hfactor : Option.Rel Staged.SameHost factor factor') :
    case'.absMaxText channel name factor' = case.absMaxText channel name factor := by
  unfold absMaxText
  rw [h.reference_eq, h.outputs_eq]
  cases hfactor with
  | none => rfl
  | some hs => simp only [factorOf_eq hs]

omit h in
theorem inputText_eq (title : String) {x y : Option Staged} (hxy : Option.Rel Staged.SameHost x y) :
    inputText title y = inputText title x := by
  cases hxy with
  | none => rfl
  | some hs => rw [inputText, inputText, hs.host_eq]

theorem dump_eq : case'.dump = case.dump := by
  have hoperand : case'.operandText = case.operandText := by
    unfold operandText
    rw [h.operands.a.host_eq, h.operands.b.host_eq]
  have hheader : case'.headerText = case.headerText := by
    unfold headerText
    rw [h.problem_eq, h.alpha_eq, h.beta_eq]
  have hscalar : case'.scalarText = case.scalarText := by
    unfold scalarText
    rw [h.config_eq, h.operands.alpha.host_eq, h.operands.beta.host_eq]
  have houtput : ∀ channel, case'.outputText channel = case.outputText channel := by
    intro channel
    unfold outputText
    rw [h.reference_eq, h.outputs_eq]
  have hproduct : case'.productText = case.productText := by
    unfold productText
    rw [h.operands.c.host_eq, h.reference_eq, h.outputs_eq]
  have hfactorD : Option.Rel Staged.SameHost (case.operands.scale.map Scales.d)
      (case'.operands.scale.map Scales.d) := rel_map_map (fun _ _ hs => hs.d) h.operands.scale
  have hfactorAux : Option.Rel Staged.SameHost (case.operands.scale.bind Scales.aux)
      (case'.operands.scale.bind Scales.aux) := by
    have hscale := h.operands.scale
    cases hs : case.operands.scale with
    | none =>
      rw [hs] at hscale
      rw [eq_none_of_rel hscale]
      exact .none
    | some s =>
      rw [hs] at hscale
      obtain ⟨s', hs', hrel⟩ := exists_of_rel_some hscale
      rw [hs']
      exact hrel.aux
  unfold dump
  rw [hheader, hoperand, h.factorText_eq, hscalar, h.absMaxText_eq .absMaxD _ hfactorD,
    h.absMaxText_eq .absMaxAux _ hfactorAux, inputText_eq _ h.operands.bias,
    inputText_eq _ h.operands.auxIn, houtput, houtput, hproduct, h.problem_eq, h.config_eq]

/-- **Cases with the same host copies have the same outcome.** -/
theorem outcome_eq : case'.outcome = case.outcome := by
  have hdump : case'.withReference.dump = case.withReference.dump := h.withReference.dump_eq
  unfold outcome verify dumpFor
  dsimp only
  rw [h.withReference.compare_eq, hdump, h.withReference.config_eq]

end Case.SameHosts

end FusedGemm
