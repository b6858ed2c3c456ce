import FusedGemm.Config.Settings

/-!
# Valid configurations

A configuration that passes its validation is kept as it is (`Config.validate_eq_ok`), so what has
been built is valid (`Config.valid_of_build`).  The tolerance of a valid configuration can be
compared with (`Config.Valid.exists_comparison`); where it is used, it is a finite number
(`Config.Valid.isFinite_epsilon`).  The types of the linear combination are real where features are
declared (`Config.Valid.real`).
-/

namespace FusedGemm

theorem exists_of_bind_eq_ok {ε α β : Type} {x : Except ε α} {f : α → Except ε β} {b : β}
    (h : x >>= f = .ok b) : ∃ a, x = .ok a ∧ f a = .ok b := by
  cases x with
  | error e => cases h
  | ok a => exact ⟨a, rfl, h⟩

namespace Config

variable {config : Config}

/-- A configuration that passes is valid and kept. -/
theorem validate_eq_ok {valid : Config} (h : config.validate = .ok valid) :
    config.Valid ∧ valid = config := by
  unfold Config.validate at h
  cases hf : config.fault? with
  | some e => rw [hf] at h; cases h
  | none =>
    rw [hf] at h
    cases h
    exact ⟨hf, rfl⟩

theorem Valid.validate_eq (h : config.Valid) : config.validate = .ok config := by
  unfold Config.validate
  rw [show config.fault? = none from h]

/-- What has been built is valid. -/
theorem valid_of_build {settings : List Setting} (h : build settings = .ok config) :
    config.Valid := by
  obtain ⟨start, -, hvalidate⟩ := exists_of_bind_eq_ok h
  obtain ⟨hvalid, rfl⟩ := validate_eq_ok hvalidate
  exact hvalid

/-- The tolerance of a valid configuration can be compared with. -/
theorem Valid.exists_comparison (h : config.Valid) :
    ∃ comparison, config.comparison = .ok comparison := by
  have hfault : config.fault? = none := h
  unfold fault? at hfault
  cases hc : config.comparison with
  | ok comparison => exact ⟨comparison, rfl⟩
  | error e =>
    rw [hc] at hfault
    split at hfault
    · cases hfault
    · split at hfault
      · cases hfault
      · split at hfault <;> cases hfault

/-- A tolerance that is used is a finite number. -/
theorem Valid.isFinite_epsilon (h : config.Valid) (hmode : config.equality = .relative) :
    config.epsilon.isFinite = true := by
  obtain ⟨comparison, hcomparison⟩ := h.exists_comparison
  unfold Config.comparison Comparison.ofMode at hcomparison
  rw [hmode] at hcomparison
  refine Decidable.byContradiction fun hinfinite => ?_
  have hrefused : (!config.epsilon.isFinite || config.epsilon < 0.0) = true := by
    simp [hinfinite]
  simp only [Comparison.within, hrefused, if_true] at hcomparison
  cases hcomparison

/-- Where features are declared, the types that validation looks at are real. -/
theorem Valid.real (h : config.Valid) (hdeclares : config.fusion.declaresFeature = true)
    {type : ElementType}
    (hmem : type ∈ [config.typeC, config.typeD, config.typeAccumulator, config.typeScalar]) :
    type.isComplex = false := by
  have hfault : config.fault? = none := h
  unfold fault? at hfault
  rw [if_pos hdeclares] at hfault
  have hcomplex : config.complexType? = none := by
    cases hc : config.complexType? with
    | none => rfl
    | some type =>
      rw [hc] at hfault
      split at hfault
      · cases hfault
      · split at hfault <;> cases hfault
  unfold complexType? at hcomplex
  rw [List.find?_eq_none] at hcomplex
  exact Bool.eq_false_iff.mpr (hcomplex type hmem)

end Config

end FusedGemm
