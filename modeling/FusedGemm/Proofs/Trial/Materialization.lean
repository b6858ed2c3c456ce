import FusedGemm.Proofs.Config.Validity
import FusedGemm.Proofs.Gemm.Related
import FusedGemm.Proofs.Trial.Placement
import FusedGemm.Trial.Case

/-!
# What is materialized

A case that has been set up holds an operand for each entry of the plan, with the contents that the
entry says and in device memory where it says so (`Materialized`, `materialized_of_setUp`).  If it
cannot be set up, the device has the allocations that it had (`allocations_setUp_of_error`).
-/

namespace FusedGemm

/-- The operands are related one by one. -/
structure Operands.Related {α β : Type} (R : α → β → Prop) (o : Operands α) (o' : Operands β) :
    Prop where
  a : R o.a o'.a
  b : R o.b o'.b
  c : R o.c o'.c
  alpha : R o.alpha o'.alpha
  beta : R o.beta o'.beta
  scale : Option.Rel (Scales.Related R) o.scale o'.scale
  bias : Option.Rel R o.bias o'.bias
  auxIn : Option.Rel R o.auxIn o'.auxIn
  outputs : Outputs.Related R o.outputs o'.outputs

/-! ### Placing operands in order -/

namespace Places

variable {α : Type} {device : Device} {done : List Staged} {f : α → Acquire Staged}
  {R : α → Staged → Prop}

/-- The action places one operand for each value, related to it. -/
def Each (device : Device) (f : α → Acquire Staged) (R : α → Staged → Prop) : Prop :=
  ∀ x done, Places device done (f x) fun staged done' => done' = done ++ [staged] ∧ R x staged

theorem option_mapM (hf : Each device f R) (x : Option α) :
    Places device done (x.mapM f) fun y done' => done' = done ++ y.toList ∧ Option.Rel R x y := by
  cases x with
  | none => exact pure ⟨by simp, .none⟩
  | some x =>
    refine bind (hf x done) ?_
    rintro staged _ ⟨rfl, hR⟩
    exact pure ⟨rfl, .some hR⟩

theorem scales_mapM (hf : Each device f R) (s : Scales α) :
    Places device done (s.mapM f) fun s' done' =>
      done' = done ++ s'.toList ∧ Scales.Related R s s' := by
  unfold Scales.mapM
  refine bind (hf s.a _) ?_
  rintro a _ ⟨rfl, ha⟩
  refine bind (hf s.b _) ?_
  rintro b _ ⟨rfl, hb⟩
  refine bind (hf s.c _) ?_
  rintro c _ ⟨rfl, hc⟩
  refine bind (hf s.d _) ?_
  rintro d _ ⟨rfl, hd⟩
  cases haux : s.aux with
  | none => exact pure ⟨by simp [Scales.toList], ha, hb, hc, hd, haux ▸ .none⟩
  | some x =>
    refine bind (hf x _) ?_
    rintro aux _ ⟨rfl, hx⟩
    exact pure ⟨by simp [Scales.toList], ha, hb, hc, hd, haux ▸ .some hx⟩

theorem option_scales_mapM (hf : Each device f R) (x : Option (Scales α)) :
    Places device done (x.mapM (Scales.mapM f)) fun y done' =>
      done' = done ++ (y.map Scales.toList).getD [] ∧ Option.Rel (Scales.Related R) x y := by
  cases x with
  | none => exact pure ⟨by simp, .none⟩
  | some s =>
    refine bind (scales_mapM hf s) ?_
    rintro s' _ ⟨rfl, hs⟩
    exact pure ⟨rfl, .some hs⟩

/-- **Operands are placed in the order of their list.** -/
theorem operands_mapM (hf : Each device f R) (o : Operands α) :
    Places device done (o.mapM f) fun o' done' =>
      done' = done ++ o'.toList ∧ Operands.Related R o o' := by
  unfold Operands.mapM
  refine bind (hf o.a _) ?_
  rintro a _ ⟨rfl, ha⟩
  refine bind (hf o.b _) ?_
  rintro b _ ⟨rfl, hb⟩
  refine bind (hf o.c _) ?_
  rintro c _ ⟨rfl, hc⟩
  refine bind (hf o.outputs.d _) ?_
  rintro d _ ⟨rfl, hd⟩
  refine bind (hf o.alpha _) ?_
  rintro alpha _ ⟨rfl, halpha⟩
  refine bind (hf o.beta _) ?_
  rintro beta _ ⟨rfl, hbeta⟩
  refine bind (option_scales_mapM hf o.scale) ?_
  rintro scale _ ⟨rfl, hscale⟩
  refine bind (option_mapM hf o.bias) ?_
  rintro bias _ ⟨rfl, hbias⟩
  refine bind (option_mapM hf o.outputs.biasGradient) ?_
  rintro biasGradient _ ⟨rfl, hbiasGradient⟩
  refine bind (option_mapM hf o.auxIn) ?_
  rintro auxIn _ ⟨rfl, hauxIn⟩
  refine bind (option_mapM hf o.outputs.aux) ?_
  rintro aux _ ⟨rfl, haux⟩
  refine bind (option_mapM hf o.outputs.absMaxD) ?_
  rintro absMaxD _ ⟨rfl, habsMaxD⟩
  refine bind (option_mapM hf o.outputs.absMaxAux) ?_
  rintro absMaxAux _ ⟨rfl, habsMaxAux⟩
  exact pure ⟨by simp [Operands.toList], ha, hb, hc, halpha, hbeta, hscale, hbias, hauxIn,
    hd, habsMaxD, hbiasGradient, haux, habsMaxAux⟩

end Places

/-! ### Materialized cases -/

/-- The operand has the contents and the place that the entry says. -/
def Staged.Meets (entry : Config.Entry) (staged : Staged) : Prop :=
  ∃ placement, entry () = .ok placement ∧ staged.host = placement.tensor ∧
    staged.buffer.isSome = placement.onDevice

/-- The case is made for the problem, and `placed` is the device with its operands. -/
structure Materialized (config : Config) (p : Problem) (alpha beta : Float) (device : Device)
    (case : Case) (placed : Device) : Prop where
  valid : config.Valid
  comparison_eq : config.comparison = .ok case.comparison
  case_eq : case = ⟨config, p, alpha, beta, case.comparison, case.operands,
    Config.referenceOutputs case.operands⟩
  meets : Operands.Related Staged.Meets (config.plan p alpha beta) case.operands
  holds : Holds device case.operands.toList ⟨placed, case.pointers⟩

section SetUp
variable {config : Config} {p : Problem} {alpha beta : Float} {device device' : Device}

/-- Away from the case the device has the allocations from before. -/
theorem Materialized.others_eq {case : Case} {placed : Device}
    (h : Materialized config p alpha beta device case placed) (hd : device.Sound) :
    placed.others case.pointers = device.allocations :=
  h.holds.others_eq hd fun _ _ => Iff.rfl

theorem places_acquire (config : Config) (p : Problem) (alpha beta : Float) (device : Device) :
    Places device [] (config.acquire p alpha beta) fun case done =>
      done = case.operands.toList ∧ config.comparison = .ok case.comparison ∧
      case = ⟨config, p, alpha, beta, case.comparison, case.operands,
        Config.referenceOutputs case.operands⟩ ∧
      Operands.Related Staged.Meets (config.plan p alpha beta) case.operands := by
  have heach : Places.Each device (fun (entry : Config.Entry) => do
      let placement ← Acquire.ofExcept (entry ())
      Acquire.place placement) Staged.Meets := by
    intro entry done
    refine Places.bind (Places.ofExcept _) ?_
    rintro placement _ ⟨rfl, hentry⟩
    exact (Places.place placement).mono fun staged _ h => ⟨h.1, placement, hentry, h.2⟩
  unfold Config.acquire
  refine Places.bind (Places.operands_mapM heach _) ?_
  rintro operands _ ⟨rfl, hmeets⟩
  refine Places.bind (Places.ofExcept _) ?_
  rintro comparison _ ⟨rfl, hcomparison⟩
  refine Places.pure ⟨rfl, ?_, rfl, hmeets⟩
  cases hc : config.comparison with
  | error e => rw [hc] at hcomparison; cases hcomparison
  | ok c => rw [hc] at hcomparison; cases hcomparison; rfl

/-- **A case that is set up is materialized.** -/
theorem materialized_of_setUp (hd : device.Sound) {case : Case}
    (h : Case.setUp config p alpha beta device = (.ok case, device')) :
    Materialized config p alpha beta device case device' := by
  unfold Case.setUp at h
  cases hv : config.validate with
  | error e => rw [hv] at h; cases h
  | ok valid =>
    obtain ⟨hvalid, rfl⟩ := Config.validate_eq_ok hv
    rw [hv] at h
    obtain ⟨done, held, hl, rfl, hcomparison, hcase, hmeets⟩ :=
      holds_run_of_ok (places_acquire valid p alpha beta device) hd h
    exact ⟨hvalid, hcomparison, hcase, hmeets, hl.sound, hl.allocations_eq, fun _ _ => Iff.rfl,
      hl.pending_eq, hl.fits⟩

/-- **A case that cannot be set up leaves the allocations from before.** -/
theorem allocations_setUp_of_error (hd : device.Sound) {e : Failure}
    (h : Case.setUp config p alpha beta device = (.error e, device')) :
    device'.Sound ∧ device'.allocations = device.allocations := by
  unfold Case.setUp at h
  cases hv : config.validate with
  | error e' =>
    rw [hv] at h
    cases h
    exact ⟨hd, rfl⟩
  | ok valid =>
    rw [hv] at h
    exact allocations_run_of_error (places_acquire valid p alpha beta device) hd h

end SetUp

/-! ### Arguments -/

/-- The outputs are among the operands. -/
theorem Operands.mem_toList_of_output {α : Type} {o : Operands α} {channel : Channel} {x : α}
    (h : x ∈ o.outputs.get? channel) : x ∈ o.toList := by
  unfold toList
  cases channel <;> simp only [Outputs.get?, Option.mem_def] at h <;> simp_all

/-- The outputs stand in the order in which they are written back. -/
theorem Operands.outputs_sublist {α : Type} (o : Operands α) :
    ([Channel.d, .biasGradient, .aux, .absMaxD, .absMaxAux].filterMap o.outputs.get?).Sublist
      o.toList := by
  have hlist : [Channel.d, .biasGradient, .aux, .absMaxD, .absMaxAux].filterMap o.outputs.get? =
      [o.outputs.d] ++ o.outputs.biasGradient.toList ++ o.outputs.aux.toList ++
        o.outputs.absMaxD.toList ++ o.outputs.absMaxAux.toList := by
    obtain ⟨d, absMaxD, biasGradient, aux, absMaxAux⟩ := o.outputs
    cases absMaxD <;> cases biasGradient <;> cases aux <;> cases absMaxAux <;> rfl
  rw [hlist, toList]
  have hproduct : [o.outputs.d].Sublist ([o.a, o.b, o.c, o.outputs.d, o.alpha, o.beta] ++
      (o.scale.map Scales.toList).getD [] ++ o.bias.toList) :=
    List.singleton_sublist.mpr (by simp)
  exact (((((hproduct.append (.refl _)).trans (List.sublist_append_left _ _)).append
    (.refl _)).append (.refl _)).append (.refl _))

/-- What the arguments of a launch consist of. -/
theorem Case.arguments_eq_ok {case : Case} {launch : Launch} (h : case.arguments = .ok launch) :
    ∃ alpha beta scale,
      Case.scalarArgument case.scalarView case.operands.alpha = .ok alpha ∧
      Case.scalarArgument case.scalarView case.operands.beta = .ok beta ∧
      case.operands.scale.mapM (Scales.mapM (Case.scalarArgument case.factorView)) = .ok scale ∧
      launch = {
        problem := case.problem
        a := case.operands.a.argument
        b := case.operands.b.argument
        accumulator := case.config.typeAccumulator
        c := case.operands.c.argument
        alpha := alpha
        beta := beta
        scale := scale
        bias := case.operands.bias.map Staged.argument
        auxIn := case.operands.auxIn.map Staged.argument
        outputs := case.operands.outputs.map Staged.argument
        activation := case.config.activation
        capabilities := case.config.capabilities } := by
  unfold Case.arguments at h
  obtain ⟨alpha, halpha, h⟩ := exists_of_bind_eq_ok h
  obtain ⟨beta, hbeta, h⟩ := exists_of_bind_eq_ok h
  obtain ⟨scale, hscale, h⟩ := exists_of_bind_eq_ok h
  cases h
  exact ⟨alpha, beta, scale, halpha, hbeta, hscale, rfl⟩

theorem Case.outputs_of_arguments {case : Case} {launch : Launch}
    (h : case.arguments = .ok launch) :
    launch.outputs = case.operands.outputs.map Staged.argument := by
  obtain ⟨alpha, beta, scale, -, -, -, rfl⟩ := Case.arguments_eq_ok h
  rfl

end FusedGemm
