import FusedGemm.Proofs.Numeric.ExactArithmetic
import FusedGemm.Proofs.Numeric.Requantizing
import FusedGemm.Tensor.Fill

/-!
# Uniform integers

A uniform number is a mantissa of 52 random bits, moved from the range between one and two to the
wanted one.  For a range between a power of two and its negative none of the steps rounds, so the
number is at least the lower end and less than the upper one (`Draw.uniform_mem`), and the integer
that it is rounded to is of the closed range (`Draw.uniformInteger_mem`).  Every element type holds
the integers of its own range (`Fill.quantizePart_integer`).
-/

namespace FusedGemm

namespace Draw

/-! ### Mantissas -/

/-- The bits of a word that a mantissa is made of. -/
def mantissaBits (w : UInt64) : Nat := w.toNat / 2 ^ 12

theorem mantissaBits_lt (w : UInt64) : mantissaBits w < 2 ^ 52 :=
  Nat.div_lt_of_lt_mul w.toNat_lt

theorem code_mantissa (w : UInt64) : code (mantissa 0 w) = 1023 * 2 ^ 52 + mantissaBits w := by
  have hlt := mantissaBits_lt w
  have hlow : (w >>> 12).toNat = mantissaBits w := by
    rw [UInt64.toNat_shiftRight, Nat.shiftRight_eq_div_pow]
    rfl
  have hbits : (((1023 + 0 : UInt64) <<< 52) ||| (w >>> 12)).toNat =
      1023 * 2 ^ 52 + mantissaBits w := by
    rw [UInt64.toNat_or, hlow, Nat.mul_comm, Nat.two_pow_add_eq_or_of_lt hlt]
    rfl
  have hword : ((1023 + 0 : UInt64) <<< 52) ||| (w >>> 12) =
      UInt64.ofNat (1023 * 2 ^ 52 + mantissaBits w) := by
    rw [← hbits, UInt64.ofNat_toNat]
  have hinfinity : FloatFormat.binary64.infinityCode = 2047 * 2 ^ 52 := rfl
  unfold mantissa
  rw [hword, code_ofBits (by omega)]

/-- A mantissa is a number from one on and below two. -/
theorem rational_mantissa (w : UInt64) : (mantissa 0 w).isFinite = true ∧
    rational (mantissa 0 w) = 1 + dyadic (mantissaBits w) (-52) := by
  have hlt := mantissaBits_lt w
  have hmax : FloatFormat.binary64.maxCode = 2047 * 2 ^ 52 - 1 := rfl
  have hfield : (1023 * 2 ^ 52 + mantissaBits w) / 2 ^ 52 = 1023 := by omega
  have hfraction : (1023 * 2 ^ 52 + mantissaBits w) % 2 ^ 52 = mantissaBits w := by omega
  have hvalue : FloatValue.ofFloat (mantissa 0 w) =
      .finite false (2 ^ 52 + mantissaBits w) (-52) := by
    show FloatFormat.binary64.decode (code _) = _
    rw [code_mantissa, FloatFormat.decode_of_le _ (by omega), magnitudeValue_of_normal (by omega),
      hfield, hfraction]
    rfl
  rw [isFinite_eq, rational, hvalue]
  refine ⟨rfl, ?_⟩
  show dyadic (2 ^ 52 + mantissaBits w) (-52) = _
  rw [dyadic_add, dyadic_one_parts]

/-! ### Numbers of a range -/

/-- The range goes from the negative of a power of two up to it. -/
structure Spans (low high : Float) (j : Nat) : Prop where
  isFinite_low : low.isFinite = true
  rational_low : rational low = -2 ^ j
  isFinite_width : (high - low).isFinite = true
  rational_width : rational (high - low) = 2 ^ (j + 1)

theorem one_dyadic_natCast (j : Nat) : dyadic 1 j = 2 ^ j := by
  rw [dyadic, Nat.cast_one, one_mul, zpow_natCast]

/-- Half of the numbers of a range are below zero. -/
theorem dyadic_sub_two_pow (m j : Nat) :
    dyadic m (j - 51) - 2 ^ j = (((m : Int) - 2 ^ 51 : Int) : ℚ) * 2 ^ ((j : Int) - 51) := by
  have hmiddle : (2 : ℚ) ^ j = dyadic (2 ^ 51) (j - 51) := by
    rw [dyadic_two_pow, ← one_dyadic_natCast]
    congr 1
    omega
  rw [hmiddle, dyadic_eq_intCast, dyadic_eq_intCast, ← sub_mul, ← Int.cast_sub]
  rfl

/-- A mantissa spread over the range is a fraction of its width. -/
theorem dyadic_sub_fifty_one (m j : Nat) :
    dyadic m (j - 51) = 2 * 2 ^ j * ((m : ℚ) / 2 ^ 52) := by
  rw [dyadic, zpow_sub₀ (by norm_num), zpow_natCast]
  norm_num
  ring

section Uniform
variable {low high : Float} {j : Nat}

/-- **No step of a uniform draw rounds**, so the bits of its mantissa are spread over the range. -/
theorem rational_uniform (h : Spans low high j) (hj : j ≤ 51) (g : Generator) :
    (uniform low high g).1.isFinite = true ∧
      rational (uniform low high g).1 = dyadic (mantissaBits g.next.1) (j - 51) - 2 ^ j := by
  obtain ⟨w, hw⟩ : ∃ w, w = g.next.1 := ⟨_, rfl⟩
  have hlt := mantissaBits_lt w
  have hdraw : (uniform low high g).1 = (mantissa 0 w - 1.0) * (high - low) + low := by
    rw [hw]
    rfl
  obtain ⟨hfinite, hvalue⟩ := rational_mantissa w
  have hone : (1.0 : Float).isFinite = true ∧ rational 1.0 = 1 := by decide +kernel
  -- the mantissa without its leading bit
  have hsub : rational (mantissa 0 w) - rational 1.0 = dyadic (mantissaBits w) (-52) := by
    rw [hvalue, hone.2, add_sub_cancel_left]
  obtain ⟨hfinite₁, hvalue₁⟩ := rational_sub hfinite hone.1 (by
    rw [hsub, dyadic_eq_intCast]
    exact representable_of_nonpos (by omega) (by decide) (by decide))
  rw [hsub] at hvalue₁
  -- spread over the width of the range
  have hmul : rational (mantissa 0 w - 1.0) * rational (high - low) =
      dyadic (mantissaBits w) (j - 51) := by
    rw [hvalue₁, h.rational_width, ← one_dyadic_natCast, ← dyadic_mul, Nat.mul_one]
    congr 1
    omega
  obtain ⟨hfinite₂, hvalue₂⟩ := rational_mul hfinite₁ h.isFinite_width (by
    rw [hmul, dyadic_eq_intCast]
    exact representable_of_nonpos (by omega) (by omega) (by omega))
  rw [hmul] at hvalue₂
  -- moved to its lower end
  have hadd : rational ((mantissa 0 w - 1.0) * (high - low)) + rational low =
      dyadic (mantissaBits w) (j - 51) - 2 ^ j := by
    rw [hvalue₂, h.rational_low]
    exact (sub_eq_add_neg _ _).symm
  obtain ⟨hfinite₃, hvalue₃⟩ := rational_add hfinite₂ h.isFinite_low (by
    rw [hadd, dyadic_sub_two_pow]
    exact representable_of_nonpos (by omega) (by omega) (by omega))
  rw [hdraw, ← hw]
  exact ⟨hfinite₃, hvalue₃.trans hadd⟩

/-- **A uniform number is at least the lower end of the range and less than the upper one.** -/
theorem uniform_mem (h : Spans low high j) (hj : j ≤ 51) (g : Generator) :
    (uniform low high g).1.isFinite = true ∧ -2 ^ j ≤ rational (uniform low high g).1 ∧
      rational (uniform low high g).1 < 2 ^ j := by
  obtain ⟨hfinite, hvalue⟩ := rational_uniform h hj g
  have hbits := mantissaBits_lt g.next.1
  generalize mantissaBits g.next.1 = m at hvalue hbits
  have hnonneg := dyadic_nonneg m ((j : Int) - 51)
  have htop : dyadic m ((j : Int) - 51) < 2 ^ (j + 1) := by
    have hlt : dyadic m ((j : Int) - 51) < dyadic (2 ^ 52) (j - 51) := by
      rwa [← not_le, dyadic_le_iff, Nat.not_le]
    refine hlt.trans_eq ?_
    rw [dyadic_two_pow, ← one_dyadic_natCast]
    congr 1
    omega
  have hdouble : (2 : ℚ) ^ (j + 1) = 2 * 2 ^ j := pow_succ' 2 j
  rw [hvalue]
  exact ⟨hfinite, by linarith, by linarith⟩

/-- **A uniform integer is one of the closed range.** -/
theorem uniformInteger_mem (h : Spans low high j) (hj : j ≤ 51) (g : Generator) :
    (uniformInteger low high g).1.isFinite = true ∧ ∃ k : Int, |k| ≤ 2 ^ j ∧
      rational (uniformInteger low high g).1 = k := by
  obtain ⟨hfinite, hlow, hhigh⟩ := uniform_mem h hj g
  have hcast : ((2 ^ j : Nat) : ℚ) = 2 ^ j := Nat.cast_pow 2 j
  have hbound : |rational (uniform low high g).1| ≤ (2 ^ j : Nat) := by
    rw [hcast]
    exact abs_le.mpr ⟨hlow, hhigh.le⟩
  have hlt : 2 ^ j < 2 ^ 53 := Nat.pow_lt_pow_right Nat.one_lt_two (by omega)
  obtain ⟨hfinite', k, hk, hvalue⟩ := rational_roundAway hfinite hlt hbound
  exact ⟨hfinite', k, hk, hvalue⟩

end Uniform

end Draw

namespace Fill

/-! ### The ranges of the element types -/

/-- The ends of a range are this power of two and its negative. -/
def uniformExponent (type : ElementType) : Nat := if type.bits ≤ 8 then 0 else 2

theorem spans_uniformRange (type : ElementType) :
    Draw.Spans (uniformRange type).1 (uniformRange type).2 (uniformExponent type) := by
  unfold uniformRange uniformExponent
  split_ifs
  · exact ⟨by decide, by decide +kernel, by decide, by decide +kernel⟩
  · exact ⟨by decide, by decide +kernel, by decide, by decide +kernel⟩

theorem uniformExponent_le (type : ElementType) : uniformExponent type ≤ 51 := by
  unfold uniformExponent
  split_ifs <;> decide

/-- Each type holds the integers of its range, zero with either sign. -/
theorem rational_quantizePart_toFloat : ∀ t ∈ ElementType.all, ∀ negative,
    ∀ n ≤ 2 ^ uniformExponent t,
      (t.quantizePart (FloatValue.finite negative n 0).toFloat).isFinite = true ∧
        rational (t.quantizePart (FloatValue.finite negative n 0).toFloat) =
          (FloatValue.finite negative n 0).toRat := by
  decide +kernel

/-- **An integer of the range of a type is stored without rounding.** -/
theorem quantizePart_integer (t : ElementType) {x : Float} (hx : x.isFinite = true) {k : Int}
    (hk : |k| ≤ 2 ^ uniformExponent t) (hvalue : rational x = k) :
    (t.quantizePart x).isFinite = true ∧ rational (t.quantizePart x) = k := by
  obtain ⟨negative, s, e, hfloat⟩ := exists_finite hx
  have hsame : (FloatValue.finite negative s e).Same (.finite negative k.natAbs 0) := by
    refine ⟨rfl, ?_⟩
    rw [rational, hfloat] at hvalue
    rw [← FloatValue.abs_toRat negative, hvalue, dyadic, zpow_zero, mul_one, Nat.cast_natAbs,
      Int.cast_abs]
  have heq : x = (FloatValue.finite negative k.natAbs 0).toFloat := by
    have hnan : FloatValue.ofFloat x ≠ .nan := by
      rw [hfloat]
      exact FloatValue.noConfusion
    rw [← toFloat_ofFloat (Bool.eq_false_iff.mpr (mt ofFloat_eq_nan_iff.mpr hnan)), hfloat]
    unfold FloatValue.toFloat
    rw [FloatFormat.binary64.encode_congr_same hsame]
  have hmem : t ∈ ElementType.all := by cases t <;> decide
  have hle : k.natAbs ≤ 2 ^ uniformExponent t := by
    rw [Int.abs_eq_natAbs] at hk
    exact_mod_cast hk
  obtain ⟨hfinite, hstored⟩ := rational_quantizePart_toFloat t hmem negative _ hle
  rw [heq]
  refine ⟨hfinite, hstored.trans ?_⟩
  rw [← hsame.toRat_eq, ← hfloat]
  exact hvalue

end Fill

end FusedGemm
