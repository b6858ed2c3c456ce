import FusedGemm.Check.Equality
import FusedGemm.Proofs.Numeric.Signs

/-!
# Tolerances

Closeness of two numbers does not depend on their order (`withinTolerance_comm`), and numbers that
are close stay so when the tolerance grows (`withinTolerance_mono`).  The second holds because the
product of the tolerance and a finite scale grows with the tolerance (`code_mul_le`); a tolerance of
minus zero is one of zero (`IsZero`).
-/

namespace FusedGemm

open Float.Model Float.Model.UnpackedFloat

/-! ### The larger of two numbers -/

section Maximum
variable {x y : Float}

theorem maxNumber_eq_or (x y : Float) : maxNumber x y = x ∨ maxNumber x y = y := by
  unfold maxNumber
  split_ifs <;> simp

theorem Bounded.maxNumber (hx : Bounded x) (hy : Bounded y) : Bounded (maxNumber x y) := by
  rcases maxNumber_eq_or x y with h | h <;> rw [h] <;> assumption

theorem maxNumber_comm (hx : Unsigned x) (hy : Unsigned y) : maxNumber x y = maxNumber y x := by
  unfold FusedGemm.maxNumber
  rw [hx.isNaN_eq, hy.isNaN_eq, hx.isNegative_eq, hy.isNegative_eq]
  simp only [lt_iff_code_lt hx hy, lt_iff_code_lt hy hx, Bool.false_eq_true, if_false]
  split_ifs
  · omega
  · rfl
  · rfl
  · exact code_inj (by omega)

end Maximum

/-- **Closeness does not depend on the order.** -/
theorem withinTolerance_comm (a b epsilon floor : Float) :
    withinTolerance a b epsilon floor = withinTolerance b a epsilon floor := by
  unfold withinTolerance
  rw [beq_comm a b, abs_sub_comm a b, Bool.or_comm]
  by_cases hfinite : (!b.isFinite || !a.isFinite) = true
  · rw [if_pos hfinite, if_pos hfinite]
  · simp only [Bool.or_eq_true, Bool.not_eq_true', not_or, Bool.not_eq_false] at hfinite
    rw [maxNumber_comm (bounded_abs hfinite.2).unsigned (bounded_abs hfinite.1).unsigned]

/-! ### Growing tolerances -/

/-- The float is zero, with either sign. -/
def IsZero (x : Float) : Prop := ∃ s, x.toModel.unpack = .zero s

section Growing
variable {x y s d : Float}

theorem Unsigned.cases_isZero (h : Unsigned x) : x.toModel.unpack = .infinity .positive ∨
    IsZero x ∨ ∃ s e hs, x.toModel.unpack = .finite .positive s e hs := by
  rcases h.unpack_cases with hu | hu | hu
  · exact Or.inl hu
  · exact Or.inr (Or.inl ⟨_, hu⟩)
  · exact Or.inr (Or.inr hu)

/-- What is not below a number without a sign, or a zero, is one itself. -/
theorem unsigned_or_isZero_of_le (hx : Unsigned x ∨ IsZero x) (h : x ≤ y) :
    Unsigned y ∨ IsZero y := by
  by_cases hy : Unsigned y
  · exact Or.inl hy
  have hcases := hx.elim Unsigned.cases_isZero fun hzero => Or.inr (Or.inl hzero)
  have hunpacked := unpack_of_lt (Nat.lt_of_not_le hy)
  rw [le_iff_unpacked] at h
  rcases hunpacked with hu | hu | hu | ⟨s, e, hs, hu⟩
  case inr.inr.inl => exact Or.inr ⟨_, hu⟩
  -- what is below zero, or no number, is above nothing without a sign
  all_goals
    rw [show y.toModel.unpack = _ from hu] at h
    rcases hcases with hv | ⟨s', hv⟩ | ⟨s', e', hs', hv⟩ <;> rw [hv] at h <;>
      exact absurd h Bool.false_ne_true

/-- Of the numbers without a sign only zero is not above zero. -/
theorem Unsigned.le_isZero_iff (hd : Unsigned d) (hz : IsZero x) : d ≤ x ↔ IsZero d := by
  obtain ⟨s, hz⟩ := hz
  rw [le_iff_unpacked, hz]
  unfold IsZero
  rcases hd.unpack_cases with hu | hu | ⟨s', e', hs', hu⟩ <;> rw [hu]
  · exact iff_of_false Bool.false_ne_true nofun
  · exact iff_of_true rfl ⟨_, rfl⟩
  · exact iff_of_false Bool.false_ne_true nofun

theorem IsZero.le (hd : IsZero d) (hx : Unsigned x ∨ IsZero x) : d ≤ x := by
  obtain ⟨s, hd⟩ := hd
  rw [le_iff_unpacked, hd]
  rcases hx.elim Unsigned.cases_isZero fun hzero => Or.inr (Or.inl hzero) with
    hu | ⟨s', hu⟩ | ⟨s', e', hs', hu⟩ <;> rw [hu] <;> rfl

theorem unpack_pack_zero (s : Sign) : UnpackedFloat.unpack Format.binary64
    (UnpackedFloat.pack Format.binary64 (.zero s)) = .zero s := by
  cases s
  · rfl
  · rfl

/-- A zero times a finite number is zero. -/
theorem IsZero.mul (hx : IsZero x) (hs : Bounded s) : IsZero (x * s) := by
  obtain ⟨sign, hx⟩ := hx
  obtain ⟨m, e, hparts⟩ := hs.exists_parts
  have hmul : (x * s).toModel.unpack = UnpackedFloat.unpack Format.binary64
      (UnpackedFloat.pack Format.binary64
        (UnpackedFloat.mul Format.binary64 x.toModel.unpack s.toModel.unpack)) := rfl
  have hproduct : UnpackedFloat.mul Format.binary64 (.zero sign)
      (FloatValue.finite false m e).unpacked = .zero (sign * .positive) := by
    rcases Nat.eq_zero_or_pos m with rfl | hpos
    · rfl
    · rw [FloatValue.unpacked_of_pos hpos]
      rfl
  refine ⟨sign * .positive, ?_⟩
  rw [hmul, hx, hparts.unpack_eq, hproduct]
  exact unpack_pack_zero _

/-- **Multiplication by a finite number without a sign keeps the order.** -/
theorem code_mul_le (hy : Bounded y) (hs : Bounded s) (h : code x ≤ code y) :
    Unsigned (x * s) ∧ Unsigned (y * s) ∧ code (x * s) ≤ code (y * s) := by
  obtain ⟨m, e, hx⟩ := Bounded.exists_parts (h.trans hy)
  obtain ⟨m', e', hy⟩ := hy.exists_parts
  obtain ⟨n, f, hs⟩ := hs.exists_parts
  have hbelow := hy.unsigned.below h
  rw [hx.value_eq, hy.value_eq] at hbelow
  have hle : dyadic m e ≤ dyadic m' e' := hbelow
  have hpos : 0 ≤ dyadic n f := mul_nonneg (Nat.cast_nonneg n) (zpow_nonneg (by norm_num) f)
  unfold Unsigned
  rw [hx.code_mul hs, hy.code_mul hs]
  refine ⟨FloatFormat.binary64.clampMagnitude_le _, FloatFormat.binary64.clampMagnitude_le _,
    FloatFormat.binary64.encode_mono (show dyadic _ _ ≤ dyadic _ _ from ?_)⟩
  rw [dyadic_mul, dyadic_mul]
  exact mul_le_mul_of_nonneg_right hle hpos

theorem Unsigned.bounded (h : Unsigned x) (hfinite : x.isFinite = true) : Bounded x := by
  rcases h.bounded_or_eq with hbounded | rfl
  · exact hbounded
  · exact absurd hfinite (by decide)

/-- What is at most a tolerance times a finite scale is at most a larger one times it. -/
theorem le_mul_of_le {epsilon epsilon' : Float} (hd : Unsigned d) (hs : Bounded s)
    (hnonneg : 0 ≤ epsilon) (hle : epsilon ≤ epsilon') (hfinite : epsilon'.isFinite = true)
    (h : d ≤ epsilon * s) : d ≤ epsilon' * s := by
  have hepsilon := unsigned_or_isZero_of_le (Or.inl parts_zero.unsigned) hnonneg
  have hproduct : Unsigned (epsilon' * s) ∨ IsZero (epsilon' * s) :=
    (unsigned_or_isZero_of_le hepsilon hle).imp
      (fun hunsigned => (code_mul_le (hunsigned.bounded hfinite) hs le_rfl).1)
      fun hzero => hzero.mul hs
  by_cases hzero : IsZero epsilon
  · -- then it is zero
    exact ((hd.le_isZero_iff (hzero.mul hs)).mp h).le hproduct
  · have hunsigned := hepsilon.resolve_right hzero
    have hunsigned' : Unsigned epsilon' := by
      refine (unsigned_or_isZero_of_le hepsilon hle).resolve_right fun hzero' => hzero ?_
      exact (hunsigned.le_isZero_iff hzero').mp hle
    obtain ⟨hproduct, hproduct', hcode⟩ := code_mul_le (hunsigned'.bounded hfinite) hs
      ((le_iff_code_le hunsigned hunsigned').mp hle)
    exact (le_iff_code_le hd hproduct').mpr (((le_iff_code_le hd hproduct).mp h).trans hcode)

end Growing

/-- **Numbers that are close stay so when the tolerance grows.** -/
theorem withinTolerance_mono {a b epsilon epsilon' floor : Float} (hfloor : Bounded floor)
    (hnonneg : 0 ≤ epsilon) (hle : epsilon ≤ epsilon') (hfinite : epsilon'.isFinite = true)
    (h : withinTolerance a b epsilon floor = true) :
    withinTolerance a b epsilon' floor = true := by
  unfold withinTolerance at h ⊢
  split_ifs at h ⊢ with hequal hinfinite
  · rfl
  · simp only [Bool.or_eq_true, Bool.not_eq_true', not_or, Bool.not_eq_false] at hinfinite
    obtain ⟨ha, hb⟩ := hinfinite
    rw [decide_eq_true_eq] at h ⊢
    have hscale := ((bounded_abs ha).maxNumber (bounded_abs hb)).maxNumber hfloor
    exact le_mul_of_le (unsigned_abs_sub ha hb) hscale hnonneg hle hfinite h

end FusedGemm
