import FusedGemm.Numeric.FloatFormat
import Mathlib.Algebra.Order.Field.Power
import Mathlib.Algebra.Order.Field.Rat
import Mathlib.Order.Monotone.Basic
import Mathlib.Tactic.Linarith
import Mathlib.Tactic.Ring

/-!
# Rounding keeps the order

`dyadic s e` is the rational `s * 2 ^ e`.  Of two of them the larger one is not rounded to the
smaller magnitude, whatever the format (`roundMagnitude_mono`), and the values of magnitudes are in
the order of the magnitudes (`dyadic_magnitudeValue_mono`).  `FloatValue.Below` is the order of
numbers without a sign, infinity being the largest, and `encode` and `decode` keep it
(`encode_mono`, `decode_mono`).  A magnitude is rounded to itself (`encode_decode`).
-/

namespace FusedGemm

/-! ### Quotients -/

namespace Tie

theorem div_le_roundDiv (tie : Tie) (n d : Nat) : n / d ≤ tie.roundDiv n d := by
  have := tie.le_resolve (n / d)
  unfold roundDiv
  split_ifs <;> omega

theorem roundDiv_le_div_add_one (tie : Tie) (n d : Nat) : tie.roundDiv n d ≤ n / d + 1 := by
  have := tie.resolve_le (n / d)
  unfold roundDiv
  split_ifs <;> omega

/-- A larger numerator is not rounded to a smaller quotient. -/
theorem roundDiv_mono (tie : Tie) {m n : Nat} (h : m ≤ n) (d : Nat) :
    tie.roundDiv m d ≤ tie.roundDiv n d := by
  rcases Nat.lt_or_eq_of_le (Nat.div_le_div_right (c := d) h) with hlt | heq
  · have hm := tie.roundDiv_le_div_add_one m d
    have hn := tie.div_le_roundDiv n d
    omega
  · -- in the same unit the remainders are in order
    have hm := Nat.div_add_mod m d
    have hn := Nat.div_add_mod n d
    rw [heq] at hm
    have hup := tie.resolve_le (n / d)
    have hdown := tie.le_resolve (n / d)
    unfold roundDiv
    rw [heq]
    split_ifs <;> omega

/-- A common factor of numerator and denominator can be cancelled. -/
theorem roundDiv_mul_mul (tie : Tie) (n d : Nat) {c : Nat} (hc : 0 < c) :
    tie.roundDiv (n * c) (d * c) = tie.roundDiv n d := by
  have hmod : 2 * (n * c % (d * c)) = 2 * (n % d) * c := by
    rw [Nat.mul_mod_mul_right, Nat.mul_assoc]
  have hlt : ∀ a b : Nat, a * c < b * c ↔ a < b := fun a b => Nat.mul_lt_mul_right hc
  unfold roundDiv
  rw [hmod, Nat.mul_div_mul_right _ _ hc]
  simp only [hlt]

/-- The product as a quotient with any large enough power of two as its denominator. -/
theorem scale_eq_roundDiv (tie : Tie) (s : Nat) {k : Int} {b : Nat} (hb : 0 ≤ k + b) :
    tie.scale s k = tie.roundDiv (s * 2 ^ (k + b).toNat) (2 ^ b) := by
  unfold scale
  split_ifs with hk
  · have hsplit : (k + b).toNat = k.toNat + b := by omega
    rw [hsplit, Nat.pow_add, ← Nat.mul_assoc, tie.roundDiv_mul _ (Nat.two_pow_pos b)]
  · have hsplit : b = (-k).toNat + (k + b).toNat := by omega
    conv_rhs => rw [hsplit, Nat.pow_add]
    rw [← hsplit, tie.roundDiv_mul_mul _ _ (Nat.two_pow_pos _)]

end Tie

/-! ### Dyadic numbers -/

/-- The rational that a significand and an exponent stand for. -/
def dyadic (s : Nat) (e : Int) : ℚ := s * 2 ^ e

theorem dyadic_pos {s : Nat} (hs : 0 < s) (e : Int) : 0 < dyadic s e :=
  mul_pos (Nat.cast_pos.mpr hs) (zpow_pos (by norm_num) e)

@[simp] theorem zero_dyadic (e : Int) : dyadic 0 e = 0 := by
  rw [dyadic, Nat.cast_zero, zero_mul]

/-- Bits can be moved from the exponent to the significand. -/
theorem dyadic_shift (s k : Nat) (e : Int) : dyadic (s * 2 ^ k) (e - k) = dyadic s e := by
  have hpow : ((2 ^ k : Nat) : ℚ) = 2 ^ (k : Int) := by
    rw [zpow_natCast]
    exact Nat.cast_pow 2 k
  rw [dyadic, dyadic, Nat.cast_mul, hpow, mul_assoc, ← zpow_add₀ (by norm_num)]
  congr 2
  omega

/-- A number is the same with its significand shifted to a smaller exponent. -/
theorem dyadic_shift_to {e low : Int} (h : low ≤ e) (s : Nat) :
    dyadic (s * 2 ^ (e - low).toNat) low = dyadic s e := by
  rw [← dyadic_shift s (e - low).toNat e]
  congr 1
  omega

theorem dyadic_le_iff {s s' : Nat} (e : Int) : dyadic s e ≤ dyadic s' e ↔ s ≤ s' := by
  rw [dyadic, dyadic, mul_le_mul_iff_of_pos_right (zpow_pos (by norm_num) e), Nat.cast_le]

theorem dyadic_add (s s' : Nat) (e : Int) : dyadic (s + s') e = dyadic s e + dyadic s' e := by
  rw [dyadic, dyadic, dyadic, Nat.cast_add, add_mul]

theorem dyadic_mul (s s' : Nat) (e e' : Int) :
    dyadic (s * s') (e + e') = dyadic s e * dyadic s' e' := by
  rw [dyadic, dyadic, dyadic, Nat.cast_mul, zpow_add₀ (by norm_num)]
  ring

theorem one_dyadic_le_iff {e e' : Int} : dyadic 1 e ≤ dyadic 1 e' ↔ e ≤ e' := by
  rw [dyadic, dyadic, Nat.cast_one, one_mul, one_mul]
  exact zpow_le_zpow_iff_right₀ (by norm_num)

theorem one_dyadic_lt_iff {e e' : Int} : dyadic 1 e < dyadic 1 e' ↔ e < e' := by
  rw [← not_le, one_dyadic_le_iff, not_le]

/-- A number is at least the power of two of its leading bit. -/
theorem one_dyadic_le_dyadic {s : Nat} (hs : s ≠ 0) (e : Int) :
    dyadic 1 (s.log2 + e) ≤ dyadic s e := by
  have hshift := dyadic_shift 1 s.log2 (s.log2 + e)
  rw [show (s.log2 : Int) + e - (s.log2 : Nat) = e by omega, Nat.one_mul] at hshift
  rw [← hshift, dyadic_le_iff]
  exact Nat.log2_self_le hs

/-- A number is less than the power of two above its leading bit. -/
theorem dyadic_lt_one_dyadic (s : Nat) (e : Int) : dyadic s e < dyadic 1 (s.log2 + e + 1) := by
  have hshift := dyadic_shift 1 (s.log2 + 1) (s.log2 + e + 1)
  rw [show (s.log2 : Int) + e + 1 - (s.log2 + 1 : Nat) = e by omega, Nat.one_mul] at hshift
  rw [← hshift, ← not_le, dyadic_le_iff, Nat.not_le]
  exact Nat.lt_log2_self

theorem log2_add_le_of_dyadic_le {s s' : Nat} {e e' : Int} (hs : s ≠ 0)
    (h : dyadic s e ≤ dyadic s' e') : s.log2 + e ≤ s'.log2 + e' := by
  have hlt := ((one_dyadic_le_dyadic hs e).trans h).trans_lt (dyadic_lt_one_dyadic s' e')
  rw [one_dyadic_lt_iff] at hlt
  omega

/-- A larger product is not rounded to a smaller natural. -/
theorem Tie.scale_mono (tie : Tie) {s s' : Nat} {k k' : Int} (h : dyadic s k ≤ dyadic s' k') :
    tie.scale s k ≤ tie.scale s' k' := by
  obtain ⟨b, hb, hb'⟩ : ∃ b : Nat, 0 ≤ k + b ∧ 0 ≤ k' + b :=
    ⟨max (-k).toNat (-k').toNat, by omega, by omega⟩
  rw [tie.scale_eq_roundDiv s hb, tie.scale_eq_roundDiv s' hb']
  refine tie.roundDiv_mono ?_ _
  rw [← dyadic_le_iff (-(b : Int)), ← sub_neg_eq_add, ← sub_neg_eq_add,
    dyadic_shift_to (by omega), dyadic_shift_to (by omega)]
  exact h

theorem dyadic_two_pow (p : Nat) (e : Int) : dyadic (2 ^ p) e = dyadic 1 (e + p) := by
  have hshift := dyadic_shift 1 p (e + p)
  rwa [Nat.one_mul, add_sub_cancel_right] at hshift

theorem Tie.scale_two_pow (tie : Tie) (p : Nat) : tie.scale (2 ^ p) 0 = 2 ^ p := by
  simp [scale]

/-- A number below a power of two is rounded to it at most. -/
theorem Tie.scale_le_two_pow (tie : Tie) {s p : Nat} {k : Int} (h : s.log2 + k + 1 ≤ p) :
    tie.scale s k ≤ 2 ^ p := by
  rw [← tie.scale_two_pow p]
  refine tie.scale_mono ?_
  rw [dyadic_two_pow, zero_add]
  exact (dyadic_lt_one_dyadic s k).le.trans (one_dyadic_le_iff.mpr h)

/-- A number from a power of two on is rounded to it at least. -/
theorem Tie.two_pow_le_scale (tie : Tie) {s p : Nat} {k : Int} (hs : s ≠ 0) (h : p ≤ s.log2 + k) :
    2 ^ p ≤ tie.scale s k := by
  rw [← tie.scale_two_pow p]
  refine tie.scale_mono ?_
  rw [dyadic_two_pow, zero_add]
  exact (one_dyadic_le_iff.mpr h).trans (one_dyadic_le_dyadic hs k)

/-! ### Magnitudes -/

namespace FloatFormat

variable (format : FloatFormat)

/-- **A larger number is not rounded to a smaller magnitude.** -/
theorem roundMagnitude_mono {s s' : Nat} {e e' : Int} (h : dyadic s e ≤ dyadic s' e') :
    format.roundMagnitude s e ≤ format.roundMagnitude s' e' := by
  by_cases hs : s = 0
  · simp [roundMagnitude, hs]
  have hs' : s' ≠ 0 := by
    rintro rfl
    rw [zero_dyadic] at h
    exact absurd h (not_le.mpr (dyadic_pos (Nat.pos_of_ne_zero hs) e))
  have hbinade := log2_add_le_of_dyadic_le hs h
  have hshift : ∀ (s : Nat) (e q : Int), dyadic s (e - q) = dyadic s e * 2 ^ (-q) := by
    intro s e q
    rw [dyadic, dyadic, mul_assoc, ← zpow_add₀ (by norm_num), sub_eq_add_neg]
  unfold roundMagnitude
  rw [if_neg hs, if_neg hs']
  dsimp only
  set b := max ((s.log2 : Int) + e) format.minExponent with hb
  set b' := max ((s'.log2 : Int) + e') format.minExponent with hb'
  rcases eq_or_lt_of_le (show b ≤ b' from max_le_max_right _ hbinade) with heq | hlt
  · -- in the same binade the spacing is the same
    refine Nat.add_le_add (by rw [heq]) (Tie.toEven.scale_mono ?_)
    rw [heq, hshift, hshift]
    exact mul_le_mul_of_nonneg_right h (zpow_nonneg (by norm_num) _)
  · -- the smaller number is at most twice the least of its binade, the larger one not subnormal
    have hupper : Tie.toEven.scale s (e - (b - format.mantissaBits)) ≤
        2 ^ (format.mantissaBits + 1) := Tie.toEven.scale_le_two_pow (by omega)
    have hlower : 2 ^ format.mantissaBits ≤
        Tie.toEven.scale s' (e' - (b' - format.mantissaBits)) :=
      Tie.toEven.two_pow_le_scale hs' (by omega)
    have hsteps : (b - format.minExponent).toNat + 1 ≤ (b' - format.minExponent).toNat := by omega
    have hmul := Nat.mul_le_mul_right (2 ^ format.mantissaBits) hsteps
    rw [Nat.add_mul, Nat.one_mul] at hmul
    rw [Nat.pow_succ] at hupper
    omega

theorem minQuantum_eq : format.minQuantum = format.minExponent - format.mantissaBits := rfl

/-- A magnitude stands for a finite number. -/
theorem exists_magnitudeValue_eq (n : Nat) :
    ∃ s e, format.magnitudeValue false n = .finite false s e := by
  unfold magnitudeValue
  dsimp only
  split_ifs <;> exact ⟨_, _, rfl⟩

/-- A subnormal magnitude is rounded to itself. -/
theorem roundMagnitude_subnormal {r : Nat} (h : r < 2 ^ format.mantissaBits) :
    format.roundMagnitude r format.minQuantum = r := by
  unfold roundMagnitude
  split_ifs with hzero
  · exact hzero.symm
  · -- it is below the least binade
    have hlog : r.log2 < format.mantissaBits := (Nat.log2_lt hzero).mpr h
    have hbinade : max ((r.log2 : Int) + format.minQuantum) format.minExponent =
        format.minExponent := by
      rw [minQuantum_eq]
      omega
    dsimp only
    rw [hbinade, ← minQuantum_eq, sub_self, sub_self]
    simp [Tie.scale]

/-- A magnitude with a leading bit, `k` binades above the least one, is rounded to itself. -/
theorem roundMagnitude_normal {r : Nat} (h : r < 2 ^ format.mantissaBits) (k : Nat) :
    format.roundMagnitude (2 ^ format.mantissaBits + r) (format.minQuantum + k) =
      (k + 1) * 2 ^ format.mantissaBits + r := by
  have hpos := Nat.two_pow_pos format.mantissaBits
  have hlog : (2 ^ format.mantissaBits + r).log2 = format.mantissaBits := by
    rw [Nat.log2_eq_iff (by omega), Nat.pow_succ]
    omega
  have hbinade : max ((format.mantissaBits : Int) + (format.minQuantum + k)) format.minExponent =
      format.minExponent + k := by
    rw [minQuantum_eq]
    omega
  have hsteps : (format.minExponent + k - format.minExponent).toNat = k := by omega
  have hshift : format.minQuantum + k - (format.minExponent + k - format.mantissaBits) = 0 := by
    rw [minQuantum_eq]
    omega
  unfold roundMagnitude
  rw [if_neg (by omega), hlog]
  dsimp only
  rw [hbinade, hsteps, hshift, Nat.succ_mul, Nat.add_assoc]
  simp [Tie.scale]

/-- A magnitude is rounded to itself. -/
theorem roundMagnitude_magnitudeValue {n s : Nat} {e : Int}
    (h : format.magnitudeValue false n = .finite false s e) : format.roundMagnitude s e = n := by
  have hsplit := Nat.div_add_mod n (2 ^ format.mantissaBits)
  have hrest := Nat.mod_lt n (Nat.two_pow_pos format.mantissaBits)
  rw [Nat.mul_comm] at hsplit
  unfold magnitudeValue at h
  dsimp only at h
  split_ifs at h with hfield
  · obtain ⟨-, rfl, rfl⟩ := FloatValue.finite.inj h
    rw [format.roundMagnitude_subnormal hrest]
    rwa [hfield, Nat.zero_mul, Nat.zero_add] at hsplit
  · obtain ⟨-, rfl, rfl⟩ := FloatValue.finite.inj h
    rw [format.roundMagnitude_normal hrest, Nat.sub_add_cancel (Nat.pos_of_ne_zero hfield)]
    exact hsplit

/-- The larger magnitude does not stand for the smaller number. -/
theorem dyadic_magnitudeValue_mono {m n s s' : Nat} {e e' : Int} (hmn : m ≤ n)
    (h : format.magnitudeValue false m = .finite false s e)
    (h' : format.magnitudeValue false n = .finite false s' e') : dyadic s e ≤ dyadic s' e' := by
  by_contra hlt
  -- rounding both numbers gives the magnitudes back, in the wrong order
  have hround := format.roundMagnitude_mono (not_le.mp hlt).le
  rw [format.roundMagnitude_magnitudeValue h, format.roundMagnitude_magnitudeValue h'] at hround
  obtain rfl : m = n := Nat.le_antisymm hmn hround
  obtain ⟨-, rfl, rfl⟩ := FloatValue.finite.inj (h.symm.trans h')
  exact hlt le_rfl

/-! ### Codes without a sign -/

theorem infinityCode_lt_signWeight : format.infinityCode < format.signWeight := by
  unfold infinityCode signWeight
  rw [Nat.pow_add]
  exact Nat.mul_lt_mul_of_pos_right (Nat.sub_lt (Nat.two_pow_pos _) Nat.one_pos)
    (Nat.two_pow_pos _)

theorem maxCode_lt_signWeight : format.maxCode < format.signWeight := by
  have hinfinity := format.infinityCode_lt_signWeight
  have hpos : 0 < format.signWeight := Nat.two_pow_pos _
  unfold maxCode
  split_ifs <;> omega

theorem maxCode_le_overflowCode : format.maxCode ≤ format.overflowCode := by
  unfold overflowCode maxCode
  split_ifs <;> omega

theorem overflowCode_lt_signWeight : format.overflowCode < format.signWeight := by
  have := format.infinityCode_lt_signWeight
  have := format.maxCode_lt_signWeight
  unfold overflowCode
  split_ifs <;> omega

theorem clampMagnitude_mono {m n : Nat} (h : m ≤ n) :
    format.clampMagnitude m ≤ format.clampMagnitude n := by
  have := format.maxCode_le_overflowCode
  unfold clampMagnitude
  split_ifs <;> omega

theorem clampMagnitude_le (n : Nat) : format.clampMagnitude n ≤ format.overflowCode := by
  have := format.maxCode_le_overflowCode
  unfold clampMagnitude
  split_ifs <;> omega

theorem decode_of_le {n : Nat} (h : n ≤ format.maxCode) :
    format.decode n = format.magnitudeValue false n := by
  have hlt := Nat.lt_of_le_of_lt h format.maxCode_lt_signWeight
  unfold decode
  simp [Nat.mod_eq_of_lt hlt, Nat.div_eq_of_lt hlt, h]

/-- The only code without a sign beyond the finite ones is infinity. -/
theorem decode_of_lt {n : Nat} (h : format.maxCode < n) (hn : n ≤ format.overflowCode) :
    format.decode n = .infinite false := by
  have hlt := Nat.lt_of_le_of_lt hn format.overflowCode_lt_signWeight
  have hinfinity : format.hasInfinity = true ∧ n = format.infinityCode := by
    unfold overflowCode at hn
    unfold maxCode at h
    split_ifs at h hn with hhas
    · exact ⟨hhas, by omega⟩
    · unfold maxCode at hn
      rw [if_neg hhas] at hn
      omega
  unfold decode
  simp only [Nat.mod_eq_of_lt hlt, Nat.div_eq_of_lt hlt, if_neg (Nat.not_le.mpr h),
    hinfinity.1, Bool.true_and, beq_iff_eq.mpr hinfinity.2, if_true]
  rfl

/-- Beyond infinity there are codes of NaN only. -/
theorem decode_of_overflowCode_lt {n : Nat} (h : format.overflowCode < n)
    (hn : n < format.signWeight) : format.decode n = .nan := by
  have hmax := format.maxCode_le_overflowCode
  have hinfinity : ¬ (format.hasInfinity && n == format.infinityCode) = true := by
    rw [Bool.and_eq_true, beq_iff_eq]
    rintro ⟨hhas, rfl⟩
    rw [overflowCode, if_pos hhas] at h
    exact Nat.lt_irrefl _ h
  unfold decode
  dsimp only
  rw [Nat.mod_eq_of_lt hn, if_neg (Nat.not_le.mpr (hmax.trans_lt h)), if_neg hinfinity]

end FloatFormat

/-! ### Codes with a sign -/

namespace FloatValue

/-- The sign of a number or an infinity. -/
def negative : FloatValue → Bool
  | .finite negative _ _ => negative
  | .infinite negative => negative
  | .nan => false

end FloatValue

namespace FloatFormat

variable (format : FloatFormat)

/-- The sign is the highest bit of a code. -/
theorem negative_decode {code : Nat} (h : format.decode code ≠ .nan) :
    (format.decode code).negative = (code / format.signWeight % 2 == 1) := by
  unfold decode at h ⊢
  dsimp only at h ⊢
  split_ifs at h ⊢
  · unfold magnitudeValue
    dsimp only
    split_ifs <;> rfl
  · rfl
  · exact absurd rfl h

end FloatFormat

/-! ### The order of numbers without a sign -/

namespace FloatValue

/-- Both are numbers without a sign, and the first one is not the larger. -/
def Below : FloatValue → FloatValue → Prop
  | .finite false s e, .finite false s' e' => dyadic s e ≤ dyadic s' e'
  | .finite false _ _, .infinite false => True
  | .infinite false, .infinite false => True
  | _, _ => False

end FloatValue

namespace FloatFormat

open FloatValue

variable (format : FloatFormat)

/-- **Rounding keeps the order.** -/
theorem encode_mono {v w : FloatValue} (h : v.Below w) : format.encode v ≤ format.encode w := by
  match v, w, h with
  | .finite false s e, .finite false s' e', h =>
    exact format.clampMagnitude_mono (format.roundMagnitude_mono h)
  | .finite false s e, .infinite false, _ => exact format.clampMagnitude_le _
  | .infinite false, .infinite false, _ => exact le_rfl

/-- Equal numbers are rounded to the same code. -/
theorem encode_congr {s s' : Nat} {e e' : Int} (h : dyadic s e = dyadic s' e') :
    format.encode (.finite false s e) = format.encode (.finite false s' e') :=
  Nat.le_antisymm (format.encode_mono (show Below _ _ from h.le))
    (format.encode_mono (show Below _ _ from h.ge))

theorem encode_le {v : FloatValue} (h : v.Below v) : format.encode v ≤ format.overflowCode := by
  match v, h with
  | .finite false s e, _ => exact format.clampMagnitude_le _
  | .infinite false, _ => exact le_rfl

/-- **Codes are in the order of what they stand for.** -/
theorem decode_mono {m n : Nat} (h : m ≤ n) (hn : n ≤ format.overflowCode) :
    (format.decode m).Below (format.decode n) := by
  rcases Nat.lt_or_ge format.maxCode n with hlarge | hsmall
  · rw [format.decode_of_lt hlarge hn]
    rcases Nat.lt_or_ge format.maxCode m with hlarge' | hsmall'
    · rw [format.decode_of_lt hlarge' (h.trans hn)]
      exact trivial
    · obtain ⟨s, e, heq⟩ := format.exists_magnitudeValue_eq m
      rw [format.decode_of_le hsmall', heq]
      exact trivial
  · obtain ⟨s, e, heq⟩ := format.exists_magnitudeValue_eq m
    obtain ⟨s', e', heq'⟩ := format.exists_magnitudeValue_eq n
    rw [format.decode_of_le hsmall, format.decode_of_le (h.trans hsmall), heq, heq']
    exact format.dyadic_magnitudeValue_mono h heq heq'

/-- **A code is rounded to itself.** -/
theorem encode_decode {n : Nat} (hn : n ≤ format.overflowCode) :
    format.encode (format.decode n) = n := by
  rcases Nat.lt_or_ge format.maxCode n with hlarge | hsmall
  · rw [format.decode_of_lt hlarge hn]
    show format.overflowCode = n
    unfold overflowCode at hn ⊢
    unfold maxCode at hlarge
    split_ifs at hlarge hn ⊢
    · omega
    · unfold maxCode at hn ⊢
      split_ifs at hn ⊢
      omega
  · obtain ⟨s, e, heq⟩ := format.exists_magnitudeValue_eq n
    rw [format.decode_of_le hsmall, heq]
    show format.clampMagnitude (format.roundMagnitude s e) = n
    rw [format.roundMagnitude_magnitudeValue heq, clampMagnitude, if_pos hsmall]

end FloatFormat

end FusedGemm
