import FusedGemm.Proofs.Numeric.SignedCodes

/-!
# Widening is exact

A format that has the bits and the range for a number keeps it (`FloatFormat.round_same`), so every
number of one format is a number of another one that has more bits and a larger range
(`FloatFormat.Within`, `FloatFormat.Within.round_same`).  Numbers are compared by what they stand
for: `FloatValue.Same` asks for the same sign and the same rational, however that is written.  All
that narrowing reads of a number is the same for such numbers (`FloatFormat.encode_congr_same`,
`FloatValue.toIntWithin_congr`).
-/

namespace FusedGemm

/-! ### Numbers written differently -/

namespace FloatValue

/-- Both stand for the same number with the same sign, both are NaN, or both are the same
infinity. -/
def Same : FloatValue → FloatValue → Prop
  | .finite negative s e, .finite negative' s' e' => negative = negative' ∧ dyadic s e = dyadic s' e'
  | .infinite negative, .infinite negative' => negative = negative'
  | .nan, .nan => True
  | _, _ => False

variable {u v w : FloatValue}

theorem Same.refl (v : FloatValue) : v.Same v := by
  cases v with
  | nan => exact trivial
  | infinite negative => exact Eq.refl negative
  | finite negative s e => exact ⟨rfl, rfl⟩

theorem Same.symm (h : v.Same w) : w.Same v := by
  match v, w, h with
  | .finite negative s e, .finite negative' s' e', h => exact ⟨h.1.symm, h.2.symm⟩
  | .infinite negative, .infinite negative', h => exact Eq.symm h
  | .nan, .nan, _ => exact trivial

theorem Same.trans (h : u.Same v) (h' : v.Same w) : u.Same w := by
  match u, v, w, h, h' with
  | .finite _ _ _, .finite _ _ _, .finite _ _ _, h, h' => exact ⟨h.1.trans h'.1, h.2.trans h'.2⟩
  | .infinite _, .infinite _, .infinite _, h, h' => exact Eq.trans h h'
  | .nan, .nan, .nan, _, _ => exact trivial

theorem Same.toRat_eq (h : v.Same w) : v.toRat = w.toRat := by
  match v, w, h with
  | .finite negative s e, .finite negative' s' e', h =>
    show (if negative then -dyadic s e else dyadic s e) =
      if negative' then -dyadic s' e' else dyadic s' e'
    rw [h.1, h.2]
  | .infinite negative, .infinite negative', _ => rfl
  | .nan, .nan, _ => rfl

theorem Same.isFinite_eq (h : v.Same w) : v.isFinite = w.isFinite := by
  match v, w, h with
  | .finite _ _ _, .finite _ _ _, _ => rfl
  | .infinite _, .infinite _, _ => rfl
  | .nan, .nan, _ => rfl

theorem Same.ne_nan (h : v.Same w) (hw : w ≠ .nan) : v ≠ .nan := by
  rintro rfl
  match w, h with
  | .nan, _ => exact hw rfl

/-- The nearest natural does not depend on how a number is written. -/
theorem scale_congr (tie : Tie) {s s' : Nat} {e e' : Int} (h : dyadic s e = dyadic s' e') :
    tie.scale s e = tie.scale s' e' :=
  Nat.le_antisymm (tie.scale_mono h.le) (tie.scale_mono h.ge)

/-- Nor does the nearest integer. -/
theorem toIntWithin_congr (tie : Tie) (least greatest : Int) (h : v.Same w) :
    v.toIntWithin tie least greatest = w.toIntWithin tie least greatest := by
  match v, w, h with
  | .finite negative s e, .finite negative' s' e', h =>
    unfold toIntWithin
    dsimp only
    rw [h.1, scale_congr tie h.2]
  | .infinite negative, .infinite negative', h =>
    obtain rfl : negative = negative' := h
    rfl
  | .nan, .nan, _ => rfl

end FloatValue

namespace FloatFormat

open FloatValue

variable (format : FloatFormat)

/-- Nor does the code that a number is rounded to. -/
theorem encode_congr_same {v w : FloatValue} (h : v.Same w) :
    format.encode v = format.encode w := by
  match v, w, h with
  | .finite negative s e, .finite negative' s' e', h =>
    show format.withSign negative (format.encode (.finite false s e)) =
      format.withSign negative' (format.encode (.finite false s' e'))
    rw [h.1, format.encode_congr h.2]
  | .infinite negative, .infinite negative', h =>
    obtain rfl : negative = negative' := h
    rfl
  | .nan, .nan, _ => rfl

/-! ### Numbers that a format has -/

/-- What a magnitude stands for, whatever its sign. -/
theorem exists_magnitudeValue (n : Nat) : ∃ s e, s < 2 ^ (format.mantissaBits + 1) ∧
    format.minQuantum ≤ e ∧ ∀ negative, format.magnitudeValue negative n = .finite negative s e := by
  have hmod : n % 2 ^ format.mantissaBits < 2 ^ format.mantissaBits :=
    Nat.mod_lt _ (Nat.two_pow_pos _)
  have hdouble : 2 ^ (format.mantissaBits + 1) = 2 * 2 ^ format.mantissaBits := by
    rw [Nat.pow_succ, Nat.mul_comm]
  unfold magnitudeValue
  dsimp only
  split_ifs
  · exact ⟨_, _, by omega, le_rfl, fun _ => rfl⟩
  · exact ⟨_, _, by omega, by omega, fun _ => rfl⟩

/-- A number that needs no more bits than the format has is not changed by rounding. -/
theorem toRat_roundMagnitude {s : Nat} {e : Int} (hs : s < 2 ^ (format.mantissaBits + 1))
    (he : format.minQuantum ≤ e) :
    (format.magnitudeValue false (format.roundMagnitude s e)).toRat = dyadic s e := by
  by_cases hzero : s = 0
  · rw [hzero, zero_dyadic, roundMagnitude, if_pos rfl, toRat_magnitudeValue_zero]
  obtain ⟨k, hbinade⟩ := format.exists_binade s e
  have hlog : s.log2 < format.mantissaBits + 1 := (Nat.log2_lt hzero).mpr hs
  -- the spacing of its binade is not above its last bit
  have hspacing : format.minQuantum + k ≤ e := by
    rw [minQuantum_eq] at he ⊢
    omega
  rw [roundMagnitude_of_binade hzero hbinade,
    format.toRat_magnitudeValue_add (le_scale_of_binade hzero hbinade) (scale_le_of_binade hbinade),
    ← dyadic_shift_to hspacing]
  unfold Tie.scale
  rw [if_pos (by omega)]

/-- A number that is not beyond the largest one is rounded to it at most. -/
theorem roundMagnitude_le_maxCode {s : Nat} {e : Int} (h : dyadic s e ≤ format.largest.toRat) :
    format.roundMagnitude s e ≤ format.maxCode := by
  obtain ⟨s', e', heq⟩ := format.exists_magnitudeValue_eq format.maxCode
  rw [toRat_largest, heq] at h
  rw [← format.roundMagnitude_magnitudeValue heq]
  exact format.roundMagnitude_mono h

/-- **A format keeps a number that it has the bits and the range for.** -/
theorem round_same {s : Nat} {e : Int} (hs : s < 2 ^ (format.mantissaBits + 1))
    (he : format.minQuantum ≤ e) (hmax : dyadic s e ≤ format.largest.toRat) (negative : Bool) :
    (format.round (.finite negative s e)).Same (.finite negative s e) := by
  have hle := format.roundMagnitude_le_maxCode hmax
  have hround : format.round (.finite negative s e) =
      format.magnitudeValue negative (format.roundMagnitude s e) := by
    rw [← format.decode_withSign negative hle]
    show format.decode (format.withSign negative (format.clampMagnitude _)) = _
    rw [clampMagnitude, if_pos hle]
  obtain ⟨s', e', -, -, hvalue⟩ := format.exists_magnitudeValue (format.roundMagnitude s e)
  have hrat := format.toRat_roundMagnitude hs he
  rw [hvalue] at hrat
  rw [hround, hvalue]
  exact ⟨rfl, hrat⟩

/-! ### Formats within formats -/

/-- The wide format has the bits, the range and the infinities of the narrow one. -/
structure Within (narrow wide : FloatFormat) : Prop where
  mantissaBits_le : narrow.mantissaBits ≤ wide.mantissaBits
  minQuantum_le : wide.minQuantum ≤ narrow.minQuantum
  largest_le : narrow.largest.toRat ≤ wide.largest.toRat
  infinite : narrow.hasInfinity = true →
    ∀ negative, wide.round (.infinite negative) = .infinite negative

variable {format}

theorem hasInfinity_of_decode_eq {code : Nat} {negative : Bool}
    (h : format.decode code = .infinite negative) : format.hasInfinity = true := by
  unfold decode at h
  dsimp only at h
  split_ifs at h with hfinite hinfinite
  · have hvalue := format.isFinite_magnitudeValue (code / format.signWeight % 2 == 1)
      (code % format.signWeight)
    rw [h] at hvalue
    cases hvalue
  · rw [Bool.and_eq_true] at hinfinite
    exact hinfinite.1

/-- The parts of a finite number of a format. -/
theorem parts_of_decode_eq {code s : Nat} {e : Int} {negative : Bool}
    (h : format.decode code = .finite negative s e) :
    s < 2 ^ (format.mantissaBits + 1) ∧ format.minQuantum ≤ e ∧
      dyadic s e ≤ format.largest.toRat := by
  have hfinite : (format.decode code).isFinite = true := by rw [h]; rfl
  obtain ⟨negative', n, hn, hdecode⟩ := format.exists_decode_eq hfinite
  obtain ⟨s', e', hs, he, hvalue⟩ := format.exists_magnitudeValue n
  have hmax := format.toRat_magnitudeValue_mono hn
  rw [h, hvalue] at hdecode
  obtain ⟨-, rfl, rfl⟩ := FloatValue.finite.inj hdecode
  rw [hvalue, ← toRat_largest] at hmax
  exact ⟨hs, he, hmax⟩

/-- **A wider format keeps all numbers of a narrower one.** -/
theorem Within.round_same {narrow wide : FloatFormat} (h : narrow.Within wide) {code : Nat}
    (hcode : narrow.decode code ≠ .nan) :
    (wide.round (narrow.decode code)).Same (narrow.decode code) := by
  rcases hvalue : narrow.decode code with _ | negative | ⟨negative, s, e⟩
  · exact absurd hvalue hcode
  · rw [h.infinite (hasInfinity_of_decode_eq hvalue)]
    exact Same.refl _
  · obtain ⟨hs, he, hmax⟩ := parts_of_decode_eq hvalue
    have hbits : 2 ^ (narrow.mantissaBits + 1) ≤ 2 ^ (wide.mantissaBits + 1) :=
      Nat.pow_le_pow_right Nat.two_pos (Nat.succ_le_succ h.mantissaBits_le)
    exact wide.round_same (hs.trans_le hbits) (h.minQuantum_le.trans he) (hmax.trans h.largest_le) _

theorem binary16_within_binary32 : binary16.Within binary32 :=
  ⟨by decide, by decide, by decide +kernel, fun _ => by decide +kernel⟩

variable (format)

/-- A number with few bits that is not subnormal has a code that ends in zeros. -/
theorem two_pow_dvd_roundMagnitude {s p : Nat} {e : Int} (hs : s < 2 ^ (p + 1))
    (hnormal : s ≠ 0 → format.minExponent ≤ s.log2 + e) (hp : p ≤ format.mantissaBits) :
    2 ^ (format.mantissaBits - p) ∣ format.roundMagnitude s e := by
  by_cases hzero : s = 0
  · rw [hzero, roundMagnitude, if_pos rfl]
    exact Nat.dvd_zero _
  obtain ⟨k, hbinade⟩ := format.exists_binade s e
  have hlog : s.log2 < p + 1 := (Nat.log2_lt hzero).mpr hs
  have hmin := hnormal hzero
  have hshift : e - (format.minQuantum + k) = ((format.mantissaBits - s.log2 : Nat) : Int) := by
    rw [minQuantum_eq]
    omega
  rw [roundMagnitude_of_binade hzero hbinade, hshift]
  unfold Tie.scale
  rw [if_pos (Int.natCast_nonneg _), Int.toNat_natCast]
  exact Nat.dvd_add (Nat.dvd_mul_left_of_dvd (Nat.pow_dvd_pow 2 (Nat.sub_le _ _)) _)
    (Nat.dvd_mul_left_of_dvd (Nat.pow_dvd_pow 2 (by omega)) _)

end FloatFormat

end FusedGemm
