import FusedGemm.Proofs.Numeric.Nearest

/-!
# Encoding from an estimate of the exponent

A number can be encoded without knowing its binary exponent.  An estimate that is off by one at most
is corrected by comparing the number with powers of two, the significand is rounded to the spacing
at that exponent, a carry out of it raises the exponent, and what is then beyond the largest value
becomes that value.  `FloatFormat.encodeFrom` takes these steps and gives the same code as
`FloatFormat.encode` (`FloatFormat.encodeFrom_eq`).  Scaling by a power of two is exact, so they are
taken on rationals.
-/

namespace FusedGemm

open FloatValue

namespace FloatFormat

variable (format : FloatFormat)

/-- The binary exponent of a number, from an estimate that is off by one at most. -/
def correctExponent (estimate : Int) (s : Nat) (e : Int) : Int :=
  if dyadic s e < dyadic 1 estimate then estimate - 1
  else if dyadic 1 (estimate + 1) ≤ dyadic s e then estimate + 1
  else estimate

/-- The code of a significand that is rounded to the spacing at an exponent.  A significand of one
bit too many is halved. -/
def assemble (significand : Nat) (exponent : Int) : Nat :=
  let carries := 2 ^ (format.mantissaBits + 1) ≤ significand
  let significand := if carries then significand / 2 else significand
  let exponent := if carries then exponent + 1 else exponent
  if format.largest.toRat < dyadic significand (exponent - format.mantissaBits) then format.maxCode
  else if significand < 2 ^ format.mantissaBits then significand
  else (exponent + (1 - format.minExponent)).toNat * 2 ^ format.mantissaBits +
    (significand - 2 ^ format.mantissaBits)

/-- The magnitude of a number, found in steps from an estimate of its binary exponent. -/
def magnitudeFrom (estimate : Int) (s : Nat) (e : Int) : Nat :=
  let exponent := max (correctExponent estimate s e) format.minExponent
  format.assemble (Tie.toEven.scale s (e - (exponent - format.mantissaBits))) exponent

/-- The code of a value, found in steps from an estimate of its binary exponent. -/
def encodeFrom (estimate : Int) : FloatValue → Nat
  | .nan => format.nanCode
  | .infinite negative => format.withSign negative format.overflowCode
  | .finite negative s e =>
    format.withSign negative (if s = 0 then 0 else format.magnitudeFrom estimate s e)

/-! ### The exponent -/

/-- An estimate that is off by one is corrected. -/
theorem correctExponent_eq {estimate : Int} {s : Nat} {e : Int} (hs : s ≠ 0)
    (h : |estimate - (s.log2 + e)| ≤ 1) : correctExponent estimate s e = s.log2 + e := by
  have hlower : ∀ k : Int, dyadic 1 k ≤ dyadic s e ↔ k ≤ s.log2 + e := by
    intro k
    refine ⟨fun hk => ?_, fun hk => (one_dyadic_le_iff.mpr hk).trans (one_dyadic_le_dyadic hs e)⟩
    have hlt := one_dyadic_lt_iff.mp (hk.trans_lt (dyadic_lt_one_dyadic s e))
    omega
  unfold correctExponent
  simp only [← not_le, hlower]
  rw [abs_le] at h
  split_ifs <;> omega

/-! ### Codes of a rounded significand -/

/-- A magnitude is beyond the largest one if its value is. -/
theorem toRat_largest_lt_iff (n : Nat) :
    format.largest.toRat < (format.magnitudeValue false n).toRat ↔ format.maxCode < n := by
  rw [toRat_largest]
  constructor
  · intro hlt
    by_contra hle
    exact absurd (format.toRat_magnitudeValue_mono (Nat.le_of_not_lt hle)) (not_le.mpr hlt)
  · intro hlt
    by_contra hle
    -- otherwise the larger magnitude would be rounded to the smaller one
    obtain ⟨s, e, heq⟩ := format.exists_magnitudeValue_eq n
    obtain ⟨s', e', heq'⟩ := format.exists_magnitudeValue_eq format.maxCode
    rw [heq, heq'] at hle
    have hround := format.roundMagnitude_mono (not_lt.mp hle)
    rw [format.roundMagnitude_magnitudeValue heq, format.roundMagnitude_magnitudeValue heq']
      at hround
    omega

/-- A significand is put where its binade begins, and stays within the largest magnitude. -/
theorem assemble_eq (hsat : format.saturates = true) {k r : Nat}
    (hk : k = 0 ∨ 2 ^ format.mantissaBits ≤ r) (hr : r ≤ 2 ^ (format.mantissaBits + 1)) :
    format.assemble r (format.minExponent + k) =
      format.clampMagnitude (k * 2 ^ format.mantissaBits + r) := by
  have hvalue := format.toRat_magnitudeValue_add hk hr
  have hclamp : format.clampMagnitude (k * 2 ^ format.mantissaBits + r) =
      if format.maxCode < k * 2 ^ format.mantissaBits + r then format.maxCode
      else k * 2 ^ format.mantissaBits + r := by
    unfold clampMagnitude
    rw [if_pos hsat]
    split_ifs <;> omega
  have hlargest := format.toRat_largest_lt_iff (k * 2 ^ format.mantissaBits + r)
  have hpos := Nat.two_pow_pos format.mantissaBits
  have hquantum : format.minExponent + k - format.mantissaBits = format.minQuantum + k := by
    rw [minQuantum_eq]
    omega
  rw [hvalue] at hlargest
  rw [Nat.pow_succ] at hr
  rw [hclamp]
  unfold assemble
  rw [Nat.pow_succ]
  rcases Nat.lt_or_eq_of_le hr with hlt | rfl
  · dsimp only
    rw [if_neg (Nat.not_le.mpr hlt), if_neg (Nat.not_le.mpr hlt), hquantum]
    simp only [hlargest]
    split_ifs with hbeyond hsmall
    · rfl
    · -- without a leading bit the significand is its own code
      obtain rfl : k = 0 := hk.resolve_right (by omega)
      rw [Nat.zero_mul, Nat.zero_add]
    · have hfield : (format.minExponent + k + (1 - format.minExponent)).toNat = k + 1 := by omega
      rw [hfield, Nat.succ_mul]
      omega
  · -- half of it at the next exponent is the same number
    have hhalf : 2 ^ format.mantissaBits * 2 / 2 = 2 ^ format.mantissaBits :=
      Nat.mul_div_cancel _ Nat.two_pos
    have hshift := dyadic_shift (2 ^ format.mantissaBits) 1 (format.minQuantum + k + 1)
    rw [Nat.pow_one, Nat.cast_one, add_sub_cancel_right] at hshift
    have hnext : format.minExponent + k + 1 - format.mantissaBits = format.minQuantum + k + 1 := by
      omega
    have hfield : (format.minExponent + k + 1 + (1 - format.minExponent)).toNat = k + 2 := by omega
    dsimp only
    rw [if_pos le_rfl, if_pos le_rfl, hhalf, hnext, ← hshift, if_neg (lt_irrefl _), hfield,
      Nat.sub_self, Nat.add_zero, Nat.add_mul, Nat.mul_comm 2]
    simp only [hlargest]

/-- **From an estimate that is off by one at most, the steps find the nearest magnitude.** -/
theorem magnitudeFrom_eq (hsat : format.saturates = true) {estimate : Int} {s : Nat} {e : Int}
    (hs : s ≠ 0) (h : |estimate - (s.log2 + e)| ≤ 1) :
    format.magnitudeFrom estimate s e = format.clampMagnitude (format.roundMagnitude s e) := by
  obtain ⟨k, hbinade⟩ := format.exists_binade s e
  have hquantum : format.minExponent + k - format.mantissaBits = format.minQuantum + k := by
    rw [minQuantum_eq]
    omega
  unfold magnitudeFrom
  dsimp only
  rw [correctExponent_eq hs h, hbinade, hquantum, roundMagnitude_of_binade hs hbinade]
  exact format.assemble_eq hsat (le_scale_of_binade hs hbinade) (scale_le_of_binade hbinade)

/-! ### Numbers near zero -/

/-- Less than half a unit is rounded to nothing. -/
theorem scale_eq_zero {s : Nat} {k : Int} (h : 2 * dyadic s k < 1) : Tie.toEven.scale s k = 0 := by
  have hnear := (Tie.scale_near s k).1
  have hle := neg_abs_le (dyadic s k - (Tie.toEven.scale s k : Nat))
  have hlt : ((Tie.toEven.scale s k : Nat) : ℚ) < (1 : Nat) := by
    rw [Nat.cast_one]
    linarith
  exact Nat.lt_one_iff.mp (Nat.cast_lt.mp hlt)

/-- A number below half the smallest value becomes zero, whatever the estimate. -/
theorem magnitudeFrom_eq_zero (estimate : Int) {s : Nat} {e : Int}
    (h : 2 * dyadic s e < dyadic 1 format.minQuantum) : format.magnitudeFrom estimate s e = 0 := by
  obtain ⟨b, hb⟩ : ∃ b, b = max (correctExponent estimate s e) format.minExponent := ⟨_, rfl⟩
  have hquantum : format.minQuantum ≤ b - format.mantissaBits := by
    rw [minQuantum_eq]
    omega
  have hunit : (0 : ℚ) < dyadic 1 (b - format.mantissaBits) := dyadic_pos Nat.one_pos _
  have hscale : Tie.toEven.scale s (e - (b - format.mantissaBits)) = 0 := by
    refine scale_eq_zero (lt_of_mul_lt_mul_right ?_ hunit.le)
    rw [mul_assoc, dyadic_sub_mul, one_mul]
    exact h.trans_le (one_dyadic_le_iff.mpr hquantum)
  have hlargest : ¬ format.largest.toRat < 0 := by
    rw [toRat_largest]
    exact not_lt.mpr (format.toRat_magnitudeValue_nonneg _)
  unfold magnitudeFrom assemble
  dsimp only
  rw [← hb, hscale, if_neg (Nat.not_le.mpr (Nat.two_pow_pos _)), zero_dyadic, if_neg hlargest,
    if_pos (Nat.two_pow_pos _)]

theorem clampMagnitude_zero : format.clampMagnitude 0 = 0 := if_pos (Nat.zero_le _)

/-- **The steps give the code of the nearest value**, from any estimate if the number is below half
the smallest value and else from one that is off by one at most. -/
theorem encodeFrom_eq (hsat : format.saturates = true) {estimate : Int} {v : FloatValue}
    (h : ∀ negative s e, v = .finite negative s e → s ≠ 0 →
      |estimate - (s.log2 + e)| ≤ 1 ∨ 2 * dyadic s e < dyadic 1 format.minQuantum) :
    format.encodeFrom estimate v = format.encode v := by
  match v, h with
  | .nan, _ => rfl
  | .infinite negative, _ => rfl
  | .finite negative s e, h =>
    refine congrArg (format.withSign negative) ?_
    split_ifs with hs
    · rw [hs, roundMagnitude, if_pos rfl, clampMagnitude_zero]
    · rcases h negative s e rfl hs with hnear | htiny
      · exact format.magnitudeFrom_eq hsat hs hnear
      · have hexact : |(s.log2 + e : Int) - (s.log2 + e)| ≤ 1 := by
          rw [sub_self, abs_zero]
          exact zero_le_one
        rw [format.magnitudeFrom_eq_zero estimate htiny, ← format.magnitudeFrom_eq hsat hs hexact,
          format.magnitudeFrom_eq_zero _ htiny]

end FloatFormat

end FusedGemm
