import FusedGemm.Proofs.Numeric.RoundingOrder
import FusedGemm.Proofs.Numeric.Signs
import Mathlib.Algebra.Order.Field.Basic

/-!
# Rounding gives the nearest value

`Tie.scale` rounds to a nearest natural, and to the even one where two are equally near
(`Tie.scale_near`).  A number is rounded within its binade, where magnitudes are evenly spaced
(`FloatFormat.toRat_magnitudeValue_add`), and those of other binades are farther away, so
`roundMagnitude` gives a magnitude that is preferred to all others, `Prefers`: a nearest one, and an
even one where there are two (`FloatFormat.roundMagnitude_nearest`).  What is beyond the largest
magnitude of a format that saturates is nearest to that one, and a value of the other sign is
farther away than zero, so the code that such a format gives to a number is that of a nearest value
(`FloatFormat.nearest_encode`).
-/

namespace FusedGemm

/-! ### Naturals -/

theorem dyadic_nonneg (s : Nat) (e : Int) : 0 ≤ dyadic s e := by
  rw [← zero_dyadic e, dyadic_le_iff]
  exact Nat.zero_le s

theorem dyadic_of_nonneg (s : Nat) {k : Int} (hk : 0 ≤ k) :
    dyadic s k = ((s * 2 ^ k.toNat : Nat) : ℚ) := by
  have hshift := dyadic_shift_to hk s
  rw [sub_zero] at hshift
  rw [← hshift, dyadic, zpow_zero, mul_one]

theorem dyadic_mul_two_pow (s : Nat) {k : Int} (hk : k ≤ 0) :
    dyadic s k * ((2 ^ (-k).toNat : Nat) : ℚ) = s := by
  have hpow : ((2 ^ (-k).toNat : Nat) : ℚ) = dyadic 1 (-k) := by
    rw [dyadic_of_nonneg 1 (by omega), Nat.one_mul]
  rw [hpow, ← dyadic_mul, Nat.mul_one, add_neg_cancel, dyadic, zpow_zero, mul_one]

namespace Tie

/-- A quotient half a unit away is even. -/
theorem roundDiv_even {n d : Nat} (hd : 0 < d)
    (h : 2 * (toEven.roundDiv n d * d) = 2 * n + d ∨ 2 * n = 2 * (toEven.roundDiv n d * d) + d) :
    toEven.roundDiv n d % 2 = 0 := by
  have hn := Nat.div_add_mod n d
  have hm : n / d * d = d * (n / d) := Nat.mul_comm _ _
  have hlt := Nat.mod_lt n hd
  unfold roundDiv at h ⊢
  split_ifs at h ⊢
  · omega
  · rw [Nat.add_mul] at h
    omega
  · show (n / d + n / d % 2) % 2 = 0
    omega

/-- A product is rounded to a natural at most half a unit away, which is even if it is just that
far. -/
theorem scale_near (s : Nat) (k : Int) :
    2 * |dyadic s k - (toEven.scale s k : Nat)| ≤ 1 ∧
      (2 * |dyadic s k - (toEven.scale s k : Nat)| = 1 → toEven.scale s k % 2 = 0) := by
  unfold scale
  split_ifs with hk
  · rw [dyadic_of_nonneg s hk, sub_self, abs_zero]
    norm_num
  · have hd : 0 < 2 ^ (-k).toNat := Nat.two_pow_pos _
    have hmul := dyadic_mul_two_pow s (show k ≤ 0 by omega)
    have hup := toEven.two_mul_roundDiv_le s (2 ^ (-k).toNat)
    have hdown := toEven.le_two_mul_roundDiv s hd
    have heven := roundDiv_even (n := s) hd
    generalize 2 ^ (-k).toNat = d at *
    generalize toEven.roundDiv s d = r at *
    generalize dyadic s k = x at *
    have hd' : (0 : ℚ) < d := by exact_mod_cast hd
    -- times the denominator, the distance is that of the numerator
    have hdist : |x - r| * d = |(s : ℚ) - r * d| := by
      rw [← hmul, ← sub_mul, abs_mul, abs_of_pos hd']
    have hup' : 2 * ((r : ℚ) * d) ≤ 2 * s + d := by exact_mod_cast hup
    have hdown' : 2 * (s : ℚ) ≤ 2 * (r * d) + d := by exact_mod_cast hdown
    have hle : |(s : ℚ) - r * d| * 2 ≤ d := by
      rcases abs_cases ((s : ℚ) - r * d) with ⟨h, -⟩ | ⟨h, -⟩ <;> rw [h] <;> linarith
    refine ⟨?_, fun heq => heven ?_⟩
    · refine le_of_mul_le_mul_right ?_ hd'
      linarith
    · have hhalf : |(s : ℚ) - r * d| * 2 = d := by
        rw [← hdist, mul_right_comm, mul_comm |x - r|, heq, one_mul]
      have hcases : 2 * ((r : ℚ) * d) = 2 * s + d ∨ 2 * (s : ℚ) = 2 * (r * d) + d := by
        rcases abs_cases ((s : ℚ) - r * d) with ⟨h, -⟩ | ⟨h, -⟩ <;> rw [h] at hhalf
        · exact Or.inr (by linarith)
        · exact Or.inl (by linarith)
      exact_mod_cast hcases

end Tie

/-! ### Distances -/

/-- Of two values the first one is preferred for a number: it is nearer, or as near and even. -/
def Prefers (x a b : ℚ) (even : Prop) : Prop :=
  |x - a| ≤ |x - b| ∧ (|x - a| = |x - b| → b = a ∨ even)

section Prefers
variable {x a b u : ℚ} {even : Prop}

theorem Prefers.refl : Prefers x a a even := ⟨le_rfl, fun _ => Or.inl rfl⟩

theorem Prefers.imp {even' : Prop} (h : Prefers x a b even) (himp : even → even') :
    Prefers x a b even' :=
  ⟨h.1, fun heq => (h.2 heq).imp_right himp⟩

/-- A value half a unit away is preferred to one that is a unit above it. -/
theorem prefers_of_add_le (h : 2 * |x - a| ≤ u) (heven : 2 * |x - a| = u → even)
    (hb : a + u ≤ b) : Prefers x a b even := by
  have hle := le_abs_self (x - a)
  have hge := neg_abs_le (x - b)
  exact ⟨by linarith, fun heq => Or.inr (heven (by linarith))⟩

/-- A value half a unit away is preferred to one that is a unit below it. -/
theorem prefers_of_le_sub (h : 2 * |x - a| ≤ u) (heven : 2 * |x - a| = u → even)
    (hb : b ≤ a - u) : Prefers x a b even := by
  have hle := neg_abs_le (x - a)
  have hge := le_abs_self (x - b)
  exact ⟨by linarith, fun heq => Or.inr (heven (by linarith))⟩

/-- A value is preferred to those beyond it. -/
theorem prefers_of_between (h : x ≤ a ∧ a ≤ b ∨ b ≤ a ∧ a ≤ x) : Prefers x a b even := by
  unfold Prefers
  rcases h with ⟨hx, hb⟩ | ⟨hb, hx⟩
  · rw [abs_of_nonpos (by linarith), abs_of_nonpos (by linarith)]
    exact ⟨by linarith, fun heq => Or.inl (by linarith)⟩
  · rw [abs_of_nonneg (by linarith), abs_of_nonneg (by linarith)]
    exact ⟨by linarith, fun heq => Or.inl (by linarith)⟩

end Prefers

/-! ### Magnitudes -/

namespace FloatValue

/-- The rational that a finite value stands for. -/
def toRat : FloatValue → ℚ
  | .finite negative s e => if negative then -dyadic s e else dyadic s e
  | _ => 0

/-- The significand of a finite value. -/
def significand : FloatValue → Nat
  | .finite _ s _ => s
  | _ => 0

end FloatValue

namespace FloatFormat

open FloatValue

variable (format : FloatFormat)

theorem isFinite_magnitudeValue (negative : Bool) (n : Nat) :
    (format.magnitudeValue negative n).isFinite = true := by
  unfold magnitudeValue
  dsimp only
  split_ifs <;> rfl

theorem toRat_magnitudeValue (negative : Bool) (n : Nat) :
    (format.magnitudeValue negative n).toRat =
      if negative then -(format.magnitudeValue false n).toRat
      else (format.magnitudeValue false n).toRat := by
  cases negative
  · rfl
  · rw [if_pos rfl]
    unfold magnitudeValue
    dsimp only
    split_ifs <;> rfl

theorem toRat_magnitudeValue_zero : (format.magnitudeValue false 0).toRat = 0 := by
  unfold magnitudeValue
  rw [Nat.zero_div, Nat.zero_mod]
  exact zero_dyadic _

theorem toRat_magnitudeValue_mono {m n : Nat} (h : m ≤ n) :
    (format.magnitudeValue false m).toRat ≤ (format.magnitudeValue false n).toRat := by
  obtain ⟨s, e, heq⟩ := format.exists_magnitudeValue_eq m
  obtain ⟨s', e', heq'⟩ := format.exists_magnitudeValue_eq n
  rw [heq, heq']
  exact format.dyadic_magnitudeValue_mono h heq heq'

theorem toRat_magnitudeValue_nonneg (n : Nat) : 0 ≤ (format.magnitudeValue false n).toRat := by
  rw [← format.toRat_magnitudeValue_zero]
  exact format.toRat_magnitudeValue_mono (Nat.zero_le n)

/-- The significand of a magnitude is even if its code is. -/
theorem significand_magnitudeValue_mod_two (hbits : 1 ≤ format.mantissaBits) (negative : Bool)
    (n : Nat) : (format.magnitudeValue negative n).significand % 2 = n % 2 := by
  have hpow : 2 ^ format.mantissaBits % 2 = 0 :=
    Nat.mod_eq_zero_of_dvd (dvd_pow_self 2 (Nat.one_le_iff_ne_zero.mp hbits))
  have hmod : n % 2 ^ format.mantissaBits % 2 = n % 2 :=
    Nat.mod_mod_of_dvd n (dvd_pow_self 2 (Nat.one_le_iff_ne_zero.mp hbits))
  unfold magnitudeValue
  dsimp only
  split_ifs
  · exact hmod
  · show (2 ^ format.mantissaBits + n % 2 ^ format.mantissaBits) % 2 = n % 2
    omega

/-- **Within a binade, and at its upper end, magnitudes are evenly spaced.** -/
theorem toRat_magnitudeValue_add {k r : Nat} (hk : k = 0 ∨ 2 ^ format.mantissaBits ≤ r)
    (hr : r ≤ 2 ^ (format.mantissaBits + 1)) :
    (format.magnitudeValue false (k * 2 ^ format.mantissaBits + r)).toRat =
      dyadic r (format.minQuantum + k) := by
  have hpos := Nat.two_pow_pos format.mantissaBits
  -- the fields of a code with a leading bit, `j` binades above the least one
  have hnormal : ∀ j f : Nat, f < 2 ^ format.mantissaBits →
      (format.magnitudeValue false ((j + 1) * 2 ^ format.mantissaBits + f)).toRat =
        dyadic (2 ^ format.mantissaBits + f) (format.minQuantum + j) := by
    intro j f hf
    have hdiv : ((j + 1) * 2 ^ format.mantissaBits + f) / 2 ^ format.mantissaBits = j + 1 := by
      rw [Nat.add_comm, Nat.add_mul_div_right _ _ hpos, Nat.div_eq_of_lt hf, Nat.zero_add]
    have hmod : ((j + 1) * 2 ^ format.mantissaBits + f) % 2 ^ format.mantissaBits = f := by
      rw [Nat.add_comm, Nat.add_mul_mod_self_right, Nat.mod_eq_of_lt hf]
    unfold magnitudeValue
    rw [hdiv, hmod]
    rfl
  rw [Nat.pow_succ] at hr
  rcases Nat.lt_or_ge r (2 ^ format.mantissaBits) with hsmall | hlarge
  · obtain rfl : k = 0 := hk.resolve_right (by omega)
    unfold magnitudeValue
    rw [Nat.zero_mul, Nat.zero_add, Nat.div_eq_of_lt hsmall, Nat.mod_eq_of_lt hsmall]
    show dyadic r _ = _
    rw [Nat.cast_zero, add_zero]
  rcases Nat.lt_or_eq_of_le hr with hlt | rfl
  · have hcode : k * 2 ^ format.mantissaBits + r =
        (k + 1) * 2 ^ format.mantissaBits + (r - 2 ^ format.mantissaBits) := by
      rw [Nat.succ_mul]
      omega
    rw [hcode, hnormal k _ (by omega)]
    congr 1
    omega
  · -- the upper end is the least magnitude of the next binade
    have hcode : k * 2 ^ format.mantissaBits + 2 ^ format.mantissaBits * 2 =
        (k + 1 + 1) * 2 ^ format.mantissaBits + 0 := by
      rw [Nat.succ_mul, Nat.succ_mul]
      omega
    have hshift := dyadic_shift (2 ^ format.mantissaBits) 1 (format.minQuantum + (k + 1 : Nat))
    rw [hcode, hnormal (k + 1) 0 hpos, Nat.add_zero, ← hshift]
    congr 1
    omega

/-! ### Binades -/

/-- A number has a binade, the least one if it is subnormal. -/
theorem exists_binade (s : Nat) (e : Int) :
    ∃ k : Nat, max ((s.log2 : Int) + e) format.minExponent = format.minExponent + k :=
  ⟨(max ((s.log2 : Int) + e) format.minExponent - format.minExponent).toNat, by omega⟩

section Binade
variable {format} {s k : Nat} {e : Int}

/-- A number is rounded within its binade. -/
theorem roundMagnitude_of_binade (hs : s ≠ 0)
    (hk : max ((s.log2 : Int) + e) format.minExponent = format.minExponent + k) :
    format.roundMagnitude s e =
      k * 2 ^ format.mantissaBits + Tie.toEven.scale s (e - (format.minQuantum + k)) := by
  have hsteps : (format.minExponent + k - format.minExponent).toNat = k := by omega
  have hquantum : format.minExponent + k - format.mantissaBits = format.minQuantum + k := by
    rw [minQuantum_eq]
    omega
  unfold roundMagnitude
  rw [if_neg hs]
  dsimp only
  rw [hk, hsteps, hquantum]

theorem scale_le_of_binade
    (hk : max ((s.log2 : Int) + e) format.minExponent = format.minExponent + k) :
    Tie.toEven.scale s (e - (format.minQuantum + k)) ≤ 2 ^ (format.mantissaBits + 1) := by
  have hquantum := format.minQuantum_eq
  exact Tie.toEven.scale_le_two_pow (by omega)

theorem le_scale_of_binade (hs : s ≠ 0)
    (hk : max ((s.log2 : Int) + e) format.minExponent = format.minExponent + k) :
    k = 0 ∨ 2 ^ format.mantissaBits ≤ Tie.toEven.scale s (e - (format.minQuantum + k)) := by
  have hquantum := format.minQuantum_eq
  rcases Nat.eq_zero_or_pos k with hzero | hpos
  · exact Or.inl hzero
  · exact Or.inr (Tie.toEven.two_pow_le_scale hs (by omega))

/-- A number is not above the upper end of its binade. -/
theorem dyadic_le_of_binade
    (hk : max ((s.log2 : Int) + e) format.minExponent = format.minExponent + k) :
    dyadic s e ≤ dyadic (2 ^ (format.mantissaBits + 1)) (format.minQuantum + k) := by
  have hquantum := format.minQuantum_eq
  rw [dyadic_two_pow]
  exact (dyadic_lt_one_dyadic s e).le.trans (one_dyadic_le_iff.mpr (by omega))

/-- A number that is not subnormal is not below the lower end of its binade. -/
theorem le_dyadic_of_binade (hs : s ≠ 0)
    (hk : max ((s.log2 : Int) + e) format.minExponent = format.minExponent + k) :
    k = 0 ∨ dyadic (2 ^ format.mantissaBits) (format.minQuantum + k) ≤ dyadic s e := by
  have hquantum := format.minQuantum_eq
  rcases Nat.eq_zero_or_pos k with hzero | hpos
  · exact Or.inl hzero
  · rw [dyadic_two_pow]
    exact Or.inr ((one_dyadic_le_iff.mpr (by omega)).trans (one_dyadic_le_dyadic hs e))

end Binade

theorem dyadic_sub_mul (s : Nat) (e q : Int) : dyadic s (e - q) * dyadic 1 q = dyadic s e := by
  rw [← dyadic_mul, Nat.mul_one, sub_add_cancel]

/-- A number is at most half a unit away from what it is rounded to, which is even if it is that
far. -/
theorem dyadic_scale_near (s : Nat) (e q : Int) {r : Nat} (hr : r = Tie.toEven.scale s (e - q)) :
    2 * |dyadic s e - dyadic r q| ≤ dyadic 1 q ∧
      (2 * |dyadic s e - dyadic r q| = dyadic 1 q → r % 2 = 0) := by
  obtain ⟨hnear, heven⟩ := Tie.scale_near s (e - q)
  rw [← hr] at hnear heven
  have hunit : (0 : ℚ) < dyadic 1 q := dyadic_pos Nat.one_pos _
  have hunits : (r : ℚ) * dyadic 1 q = dyadic r q := by
    rw [dyadic, dyadic, Nat.cast_one, one_mul]
  have hdist : |dyadic s (e - q) - r| * dyadic 1 q = |dyadic s e - dyadic r q| := by
    rw [← dyadic_sub_mul s e q, ← hunits, ← sub_mul, abs_mul, abs_of_pos hunit]
  rw [← hdist, ← mul_assoc]
  exact ⟨mul_le_of_le_one_left hunit.le hnear, fun heq =>
    heven (mul_right_cancel₀ hunit.ne' (heq.trans (one_mul _).symm))⟩

section Neighbours
variable {format} {s k r : Nat} {e : Int}

/-- What a number is rounded to in its binade is preferred to all smaller magnitudes. -/
theorem prefers_of_lt (hs : s ≠ 0)
    (hbinade : max ((s.log2 : Int) + e) format.minExponent = format.minExponent + k)
    (hscale : r = Tie.toEven.scale s (e - (format.minQuantum + k))) {n : Nat}
    (hn : n < k * 2 ^ format.mantissaBits + r) :
    Prefers (dyadic s e) (dyadic r (format.minQuantum + k))
      (format.magnitudeValue false n).toRat (r % 2 = 0) := by
  have hk := le_scale_of_binade hs hbinade
  have hr := scale_le_of_binade hbinade
  rw [← hscale] at hk hr
  by_cases hend : k ≠ 0 ∧ r = 2 ^ format.mantissaBits
  · -- at the lower end of its binade the number is not below the magnitude
    have hmono := format.toRat_magnitudeValue_mono hn.le
    rw [format.toRat_magnitudeValue_add hk hr] at hmono
    refine prefers_of_between (Or.inr ⟨hmono, ?_⟩)
    rw [hend.2]
    exact (le_dyadic_of_binade hs hbinade).resolve_left hend.1
  · -- otherwise the next lower magnitude is in the binade
    have hpred : 0 < r ∧ (k = 0 ∨ 2 ^ format.mantissaBits ≤ r - 1) := by
      rcases Nat.eq_zero_or_pos k with rfl | hpos
      · rw [Nat.zero_mul] at hn
        exact ⟨by omega, Or.inl rfl⟩
      · have := Nat.two_pow_pos format.mantissaBits
        exact ⟨by omega, by omega⟩
    have hmono := format.toRat_magnitudeValue_mono
      (show n ≤ k * 2 ^ format.mantissaBits + (r - 1) by omega)
    rw [format.toRat_magnitudeValue_add hpred.2 (by omega)] at hmono
    have hsum := dyadic_add (r - 1) 1 (format.minQuantum + k)
    rw [Nat.sub_add_cancel hpred.1] at hsum
    obtain ⟨hnear, heven⟩ := dyadic_scale_near s e _ hscale
    exact prefers_of_le_sub hnear heven (by linarith)

/-- What a number is rounded to in its binade is preferred to all larger magnitudes. -/
theorem prefers_of_gt (hs : s ≠ 0)
    (hbinade : max ((s.log2 : Int) + e) format.minExponent = format.minExponent + k)
    (hscale : r = Tie.toEven.scale s (e - (format.minQuantum + k))) {n : Nat}
    (hn : k * 2 ^ format.mantissaBits + r < n) :
    Prefers (dyadic s e) (dyadic r (format.minQuantum + k))
      (format.magnitudeValue false n).toRat (r % 2 = 0) := by
  have hk := le_scale_of_binade hs hbinade
  have hr := scale_le_of_binade hbinade
  rw [← hscale] at hk hr
  rcases Nat.lt_or_eq_of_le hr with hwithin | hend
  · have hmono := format.toRat_magnitudeValue_mono
      (show k * 2 ^ format.mantissaBits + (r + 1) ≤ n by omega)
    rw [format.toRat_magnitudeValue_add (by omega) (show r + 1 ≤ _ from hwithin), dyadic_add]
      at hmono
    obtain ⟨hnear, heven⟩ := dyadic_scale_near s e _ hscale
    exact prefers_of_add_le hnear heven hmono
  · -- at the upper end of its binade the number is not above the magnitude
    have hmono := format.toRat_magnitudeValue_mono hn.le
    rw [format.toRat_magnitudeValue_add hk hr] at hmono
    refine prefers_of_between (Or.inl ⟨?_, hmono⟩)
    rw [hend]
    exact dyadic_le_of_binade hbinade

end Neighbours

/-- **A number is rounded to a nearest magnitude, and to an even one where there are two.** -/
theorem roundMagnitude_nearest (hbits : 1 ≤ format.mantissaBits) (s : Nat) (e : Int) (n : Nat) :
    Prefers (dyadic s e) (format.magnitudeValue false (format.roundMagnitude s e)).toRat
      (format.magnitudeValue false n).toRat (format.roundMagnitude s e % 2 = 0) := by
  by_cases hs : s = 0
  · -- zero is a magnitude
    have hzero : format.roundMagnitude s e = 0 := if_pos hs
    rw [hzero, hs, zero_dyadic, format.toRat_magnitudeValue_zero]
    exact prefers_of_between (Or.inl ⟨le_rfl, format.toRat_magnitudeValue_nonneg n⟩)
  obtain ⟨k, hbinade⟩ := format.exists_binade s e
  obtain ⟨r, hscale⟩ : ∃ r, r = Tie.toEven.scale s (e - (format.minQuantum + k)) := ⟨_, rfl⟩
  have hround := roundMagnitude_of_binade hs hbinade
  have hvalue := format.toRat_magnitudeValue_add (le_scale_of_binade hs hbinade)
    (scale_le_of_binade hbinade)
  rw [← hscale] at hround hvalue
  have hcode : r % 2 = 0 → (k * 2 ^ format.mantissaBits + r) % 2 = 0 := by
    intro hmod
    have hdvd : 2 ∣ k * 2 ^ format.mantissaBits :=
      Dvd.dvd.mul_left (dvd_pow_self 2 (Nat.one_le_iff_ne_zero.mp hbits)) k
    omega
  rw [hround]
  rcases lt_trichotomy n (k * 2 ^ format.mantissaBits + r) with hlt | rfl | hgt
  · rw [hvalue]
    exact (prefers_of_lt hs hbinade hscale hlt).imp hcode
  · exact Prefers.refl
  · rw [hvalue]
    exact (prefers_of_gt hs hbinade hscale hgt).imp hcode

/-- **In a format that saturates, a number is kept as a nearest magnitude, an even one where there
are two.** -/
theorem clampMagnitude_nearest (hbits : 1 ≤ format.mantissaBits) (hsat : format.saturates = true)
    (s : Nat) (e : Int) {n m : Nat} (hn : n ≤ format.maxCode)
    (hm : m = format.clampMagnitude (format.roundMagnitude s e)) :
    Prefers (dyadic s e) (format.magnitudeValue false m).toRat
      (format.magnitudeValue false n).toRat (m % 2 = 0) := by
  subst hm
  unfold clampMagnitude
  rw [if_pos hsat]
  split_ifs with hle
  · exact format.roundMagnitude_nearest hbits s e n
  · -- otherwise the number would be rounded to the largest magnitude at most
    have hbeyond : (format.magnitudeValue false format.maxCode).toRat ≤ dyadic s e := by
      obtain ⟨s', e', heq⟩ := format.exists_magnitudeValue_eq format.maxCode
      rw [heq]
      by_contra hlt
      have hround := format.roundMagnitude_mono (not_le.mp hlt).le
      rw [format.roundMagnitude_magnitudeValue heq] at hround
      exact hle hround
    exact prefers_of_between (Or.inr ⟨format.toRat_magnitudeValue_mono hn, hbeyond⟩)

/-! ### Codes -/

theorem decode_withSign (negative : Bool) {n : Nat} (h : n ≤ format.maxCode) :
    format.decode (format.withSign negative n) = format.magnitudeValue negative n := by
  have hlt := Nat.lt_of_le_of_lt h format.maxCode_lt_signWeight
  cases negative
  · exact format.decode_of_le h
  · have hpos : 0 < format.signWeight := Nat.two_pow_pos _
    have hdiv : (format.signWeight + n) / format.signWeight = 1 := by
      rw [Nat.add_div_left _ hpos, Nat.div_eq_of_lt hlt]
    have hmod : (format.signWeight + n) % format.signWeight = n := by
      rw [Nat.add_mod_left, Nat.mod_eq_of_lt hlt]
    show format.decode (format.signWeight + n) = _
    unfold decode
    dsimp only
    rw [hdiv, hmod, if_pos h]
    rfl

/-- The finite values are those of the finite magnitudes, with either sign. -/
theorem exists_decode_eq {code : Nat} (h : (format.decode code).isFinite = true) :
    ∃ negative n, n ≤ format.maxCode ∧
      format.decode code = format.magnitudeValue negative n := by
  unfold decode at h ⊢
  dsimp only at h ⊢
  split_ifs at h ⊢ with hle
  · exact ⟨_, _, hle, rfl⟩
  · cases h
  · cases h

theorem abs_toRat_magnitudeValue (negative : Bool) (n : Nat) :
    |(format.magnitudeValue negative n).toRat| = (format.magnitudeValue false n).toRat := by
  have hnonneg := format.toRat_magnitudeValue_nonneg n
  rw [toRat_magnitudeValue]
  cases negative
  · exact abs_of_nonneg hnonneg
  · exact (abs_neg _).trans (abs_of_nonneg hnonneg)

theorem toRat_largest :
    format.largest.toRat = (format.magnitudeValue false format.maxCode).toRat := by
  unfold largest
  rw [format.decode_of_le le_rfl]

/-- No finite value is beyond the largest one. -/
theorem abs_toRat_decode_le {code : Nat} (h : (format.decode code).isFinite = true) :
    |(format.decode code).toRat| ≤ format.largest.toRat := by
  obtain ⟨negative, n, hn, heq⟩ := format.exists_decode_eq h
  rw [heq, abs_toRat_magnitudeValue, toRat_largest]
  exact format.toRat_magnitudeValue_mono hn

/-- Values of one sign are as far apart as their magnitudes. -/
theorem abs_toRat_sub (negative : Bool) (s : Nat) (e : Int) (n : Nat) :
    |(FloatValue.finite negative s e).toRat - (format.magnitudeValue negative n).toRat| =
      |dyadic s e - (format.magnitudeValue false n).toRat| := by
  cases negative
  · rfl
  · rw [toRat_magnitudeValue]
    show |-dyadic s e - -_| = _
    rw [neg_sub_neg, ← abs_neg, neg_sub]

/-- Between values of different signs lies zero. -/
theorem abs_toRat_sub_not (negative : Bool) (s : Nat) (e : Int) (n : Nat) :
    |(FloatValue.finite negative s e).toRat - (format.magnitudeValue (!negative) n).toRat| =
      dyadic s e + (format.magnitudeValue false n).toRat := by
  have hsum := add_nonneg (dyadic_nonneg s e) (format.toRat_magnitudeValue_nonneg n)
  cases negative
  · rw [toRat_magnitudeValue]
    show |dyadic s e - -_| = _
    rw [sub_neg_eq_add, abs_of_nonneg hsum]
  · show |-dyadic s e - _| = _
    rw [← neg_add', abs_neg]
    exact abs_of_nonneg hsum

/-- The code stands for a finite value that is preferred to all others for the given one. -/
structure Nearest (value : FloatValue) (code : Nat) : Prop where
  isFinite : (format.decode code).isFinite = true
  prefers : ∀ other, (format.decode other).isFinite = true →
    Prefers value.toRat (format.decode code).toRat (format.decode other).toRat
      ((format.decode code).significand % 2 = 0)

/-- **A format that saturates gives a number the code of a nearest value.** -/
theorem nearest_encode (hbits : 1 ≤ format.mantissaBits) (hsat : format.saturates = true)
    (negative : Bool) (s : Nat) (e : Int) :
    format.Nearest (.finite negative s e) (format.encode (.finite negative s e)) := by
  obtain ⟨m, hm⟩ : ∃ m, m = format.clampMagnitude (format.roundMagnitude s e) := ⟨_, rfl⟩
  have hle : m ≤ format.maxCode := by
    rw [hm]
    unfold clampMagnitude
    rw [if_pos hsat]
    split_ifs with h
    · exact h
    · exact le_rfl
  have hdecode : format.decode (format.encode (.finite negative s e)) =
      format.magnitudeValue negative m := by
    rw [← format.decode_withSign negative hle, hm]
    rfl
  refine ⟨by rw [hdecode]; exact format.isFinite_magnitudeValue _ _, fun other hother => ?_⟩
  obtain ⟨negative', n, hn, heq⟩ := format.exists_decode_eq hother
  rw [hdecode]
  unfold Prefers
  rw [heq, format.significand_magnitudeValue_mod_two hbits, abs_toRat_sub]
  by_cases hsign : negative' = negative
  · obtain ⟨hle', htie⟩ := format.clampMagnitude_nearest hbits hsat s e hn hm
    rw [hsign, abs_toRat_sub]
    refine ⟨hle', fun h => (htie h).imp_left fun hsame => ?_⟩
    rw [toRat_magnitudeValue, hsame, ← toRat_magnitudeValue]
  · -- a value of the other sign is no nearer than zero
    obtain ⟨hle', htie⟩ := format.clampMagnitude_nearest hbits hsat s e (Nat.zero_le _) hm
    have hnonneg := format.toRat_magnitudeValue_nonneg n
    rw [Bool.eq_not_of_ne hsign, abs_toRat_sub_not]
    rw [format.toRat_magnitudeValue_zero, sub_zero, abs_of_nonneg (dyadic_nonneg s e)]
      at hle' htie
    refine ⟨by linarith, fun h => (htie (by linarith)).imp_left fun hzero => ?_⟩
    have hn' : (format.magnitudeValue false n).toRat = 0 := by linarith
    rw [toRat_magnitudeValue, hn', toRat_magnitudeValue, ← hzero, neg_zero, ite_self, ite_self]

end FloatFormat

end FusedGemm
