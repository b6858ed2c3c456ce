import FusedGemm.Proofs.Numeric.Arithmetic
import Mathlib.Data.Nat.Sqrt

/-!
# The order of floats without signs

Floats without signs are in the order of their codes (`lt_iff_code_lt`), and what is above one of
them has no sign either (`Unsigned.of_lt`).  Roots of positive numbers are positive
(`zero_lt_sqrt`), and naturals become floats by rounding (`code_ofNat`).
-/

namespace FusedGemm

open Float.Model Float.Model.UnpackedFloat

/-! ### The order -/

section Order
variable {x y : Float}

/-- The finite codes are in the order of exponents and significands. -/
theorem Parts.code_lt_iff {s s' : Nat} {e e' : Int} (hx : Parts x s e) (hy : Parts y s' e') :
    code x < code y ↔ e < e' ∨ e = e' ∧ s < s' := by
  have := hx.lt
  have := hx.le
  have := hx.normal
  have := hy.lt
  have := hy.le
  have := hy.normal
  rw [hx.code_eq, hy.code_eq]
  omega

theorem lt_iff_unpacked : x < y ↔ UnpackedFloat.lt x.toModel.unpack y.toModel.unpack = true := by
  show decide (UnpackedFloat.lt _ _ = true) = true ↔ _
  exact decide_eq_true_iff

theorem Parts.lt_iff {s s' : Nat} {e e' : Int} (hx : Parts x s e) (hy : Parts y s' e') :
    x < y ↔ e < e' ∨ e = e' ∧ s < s' := by
  have hnormal := hx.normal
  have hnormal' := hy.normal
  have hle := hx.le
  have hle' := hy.le
  rw [lt_iff_unpacked, hx.unpack_eq, hy.unpack_eq]
  rcases Nat.eq_zero_or_pos s with rfl | hpos <;> rcases Nat.eq_zero_or_pos s' with rfl | hpos'
  · exact iff_of_false Bool.false_ne_true (by omega)
  · rw [FloatValue.unpacked_of_pos hpos']
    exact iff_of_true rfl (by omega)
  · rw [FloatValue.unpacked_of_pos hpos]
    exact iff_of_false Bool.false_ne_true (by omega)
  · rw [FloatValue.unpacked_of_pos hpos, FloatValue.unpacked_of_pos hpos']
    show (some ((compare e e').then (compare s s')) == some .lt) = true ↔ _
    rw [beq_iff_eq, Option.some.injEq, Ordering.then_eq_lt, Int.compare_eq_lt, Nat.compare_eq_lt,
      Int.compare_eq_eq]

/-- **Unsigned floats are in the order of their codes.** -/
theorem lt_iff_code_lt (hx : Unsigned x) (hy : Unsigned y) : x < y ↔ code x < code y := by
  rcases hx.bounded_or_eq with hbounded | rfl
  · obtain ⟨s, e, hparts⟩ := hbounded.exists_parts
    rcases hy.bounded_or_eq with hbounded' | rfl
    · obtain ⟨s', e', hparts'⟩ := hbounded'.exists_parts
      rw [hparts.lt_iff hparts', hparts.code_lt_iff hparts']
    · have hmax : FloatFormat.binary64.maxCode < code infinity := by decide
      rw [lt_iff_unpacked, unpack_infinity, hparts.unpack_eq]
      refine iff_of_true ?_ (Nat.lt_of_le_of_lt hbounded hmax)
      rcases Nat.eq_zero_or_pos s with rfl | hpos
      · rfl
      · rw [FloatValue.unpacked_of_pos hpos]
        rfl
  · have hmax : code infinity = FloatFormat.binary64.infinityCode := by decide
    rw [lt_iff_unpacked, unpack_infinity]
    refine iff_of_false ?_ (Nat.not_lt.mpr (hmax ▸ hy))
    rcases hy.unpack_cases with hu | hu | ⟨s, e, hs, hu⟩ <;> rw [hu] <;> exact Bool.false_ne_true

/-- A number above zero is the larger one of the two. -/
theorem maxNumber_zero (h : Unsigned x) (hpos : 0 < code x) : maxNumber x 0 = x := by
  have hzero : code 0 = 0 := by decide
  have hlt : ¬ x < 0 := by
    rw [lt_iff_code_lt h parts_zero.unsigned, hzero]
    exact Nat.not_lt_zero _
  have hgt : 0 < x := by
    rwa [lt_iff_code_lt parts_zero.unsigned h, hzero]
  unfold maxNumber
  rw [h.isNaN_eq, parts_zero.unsigned.isNaN_eq, if_neg hlt, if_pos hgt]
  rfl

/-- Codes beyond infinity are unpacked to NaN or to something with a sign. -/
theorem unpack_of_lt {b : BitVec 64} (h : FloatFormat.binary64.infinityCode < b.toNat) :
    UnpackedFloat.unpack Format.binary64 b = .notANumber ∨
      UnpackedFloat.unpack Format.binary64 b = .infinity .negative ∨
      UnpackedFloat.unpack Format.binary64 b = .zero .negative ∨
      ∃ s e hs, UnpackedFloat.unpack Format.binary64 b = .finite .negative s e hs := by
  rw [unpack_eq]
  by_cases hnan : FloatFormat.binary64.decode b.toNat = .nan
  · rw [hnan]
    exact Or.inl rfl
  have hsign : (FloatFormat.binary64.decode b.toNat).negative = true := by
    have hlarge : 2 ^ 63 ≤ b.toNat := by
      by_contra hsmall
      exact hnan (FloatFormat.binary64.decode_of_overflowCode_lt h (Nat.lt_of_not_le hsmall))
    have hlt := b.isLt
    rw [FloatFormat.negative_decode _ hnan]
    show (b.toNat / 2 ^ 63 % 2 == 1) = true
    rw [beq_iff_eq]
    omega
  rcases hvalue : FloatFormat.binary64.decode b.toNat with _ | negative | ⟨negative, s, e⟩
  · exact absurd hvalue hnan
  all_goals
    rw [hvalue] at hsign
    obtain rfl : negative = true := hsign
  · exact Or.inr (Or.inl rfl)
  · rcases Nat.eq_zero_or_pos s with rfl | hpos
    · exact Or.inr (Or.inr (Or.inl rfl))
    · exact Or.inr (Or.inr (Or.inr ⟨s, e, hpos, FloatValue.toUnpacked_of_pos hpos e⟩))

/-- What is above a float without a sign has none. -/
theorem Unsigned.of_lt (hx : Unsigned x) (h : x < y) : Unsigned y := by
  by_contra hy
  rw [lt_iff_unpacked] at h
  have hfalse : UnpackedFloat.lt x.toModel.unpack y.toModel.unpack = false := by
    show UnpackedFloat.lt _ (UnpackedFloat.unpack Format.binary64 y.toBits.toBitVec) = false
    rcases unpack_of_lt (Nat.lt_of_not_le hy) with hu | hu | hu | ⟨s, e, hs, hu⟩ <;> rw [hu] <;>
      rcases hx.unpack_cases with hu' | hu' | ⟨s', e', hs', hu'⟩ <;> rw [hu'] <;> rfl
  exact Bool.false_ne_true (hfalse.symm.trans h)

theorem Unsigned.isNegative_eq (h : Unsigned x) : isNegative x = false := by
  have hbelow := h.below le_rfl
  unfold isNegative
  cases hv : FloatValue.ofFloat x with
  | nan => rfl
  | infinite negative =>
    rw [hv] at hbelow
    cases negative with
    | false => rfl
    | true => exact hbelow.elim
  | finite negative s e =>
    rw [hv] at hbelow
    cases negative with
    | false => rfl
    | true => exact hbelow.elim

/-- A maximum that starts without a sign never gets one. -/
theorem Unsigned.maxNumber (h : Unsigned x) (y : Float) : Unsigned (maxNumber x y) := by
  unfold FusedGemm.maxNumber
  rw [h.isNaN_eq, h.isNegative_eq, if_neg Bool.false_ne_true, if_neg Bool.false_ne_true]
  split_ifs with hnan hlt
  · exact h
  · exact h.of_lt hlt
  · exact h
  · exact h

end Order

/-! ### Square roots -/

section Roots
variable {x : Float}

theorem mantissa_shiftRight (em : ExtendedMantissa) (k : Nat) :
    (em >>> k).mantissa = em.mantissa / 2 ^ k := by
  induction k with
  | zero => exact (Nat.div_one _).symm
  | succ k ih =>
    show (em >>> k).mantissa / 2 = _
    rw [ih, Nat.div_div_eq_div_mul, ← Nat.pow_succ]

theorem le_roundedMantissa (em : ExtendedMantissa) : em.mantissa ≤ em.roundedMantissa := by
  obtain ⟨m, _ | _, _ | _⟩ := em
  · exact le_rfl
  · exact le_rfl
  · exact Nat.le_add_right m _
  · exact Nat.le_succ m

theorem roundedMantissa_le (em : ExtendedMantissa) : em.roundedMantissa ≤ em.mantissa + 1 := by
  obtain ⟨m, _ | _, _ | _⟩ := em
  · exact Nat.le_succ m
  · exact Nat.le_succ m
  · show m + m % 2 ≤ m + 1
    omega
  · exact le_rfl

/-- What has bits enough and is no smaller than a normal number is rounded to a positive number. -/
theorem toNat_pack_pos {m : Nat} {e : Int} (accuracy : Accuracy) (hm : m ≠ 0) (hbits : 52 ≤ m.log2)
    (hnormal : -1022 ≤ m.log2 + e) :
    0 < (UnpackedFloat.pack Format.binary64
        (roundWithAccuracy Format.binary64 .positive m e accuracy)).toNat ∧
      (UnpackedFloat.pack Format.binary64
        (roundWithAccuracy Format.binary64 .positive m e accuracy)).toNat ≤
        FloatFormat.binary64.infinityCode := by
  obtain ⟨k, hk⟩ : ∃ k, m.log2 = 52 + k := ⟨m.log2 - 52, by omega⟩
  set em := ExtendedMantissa.ofMantissaAndAccuracy m accuracy >>> k with hem
  have hfirst : shiftToTargetExponent Format.binary64 m e accuracy = (em, e + k) := by
    unfold shiftToTargetExponent shiftToExponent
    rw [targetExponent_eq]
    dsimp only
    have hshift : (max ((m.log2 : Int) + e - 52) (-1074) - e).toNat = k := by omega
    rw [hshift]
  have hmantissa : em.mantissa = m / 2 ^ k := by
    rw [hem, mantissa_shiftRight]
    cases accuracy with
    | exact => rfl
    | inexact o => cases o <;> rfl
  have hlow : 2 ^ 52 ≤ m / 2 ^ k := by
    rw [Nat.le_div_iff_mul_le (Nat.two_pow_pos k), ← Nat.pow_add, ← hk]
    exact Nat.log2_self_le hm
  have hhigh : m / 2 ^ k < 2 ^ 53 := by
    rw [Nat.div_lt_iff_lt_mul (Nat.two_pow_pos k), ← Nat.pow_add]
    refine Nat.lt_of_lt_of_le Nat.lt_log2_self (Nat.pow_le_pow_right (by omega) (by omega))
  have hle := le_roundedMantissa em
  have hge := roundedMantissa_le em
  rw [hmantissa] at hle hge
  rw [toNat_pack_of_first hfirst rfl (by omega) (by omega) (Or.inl (by omega))]
  refine ⟨?_, FloatFormat.binary64.clampMagnitude_le _⟩
  have hmono := FloatFormat.binary64.clampMagnitude_mono
    (show 1 ≤ (e + k + 1074).toNat * 2 ^ 52 + em.roundedMantissa by omega)
  exact Nat.lt_of_lt_of_le (by decide) hmono

/-- The leading bit of a root is half way up to that of the number. -/
theorem log2_le_log2_sqrt {n : Nat} (hn : n ≠ 0) :
    Nat.sqrt n ≠ 0 ∧ n.log2 / 2 ≤ (Nat.sqrt n).log2 := by
  have hroot : 2 ^ (n.log2 / 2) ≤ Nat.sqrt n := by
    rw [Nat.le_sqrt, ← Nat.pow_add, ← Nat.two_mul]
    exact (Nat.pow_le_pow_right Nat.two_pos (by omega)).trans (Nat.log2_self_le hn)
  have hne : Nat.sqrt n ≠ 0 := by
    have := Nat.two_pow_pos (n.log2 / 2)
    omega
  exact ⟨hne, (Nat.le_log2 hne).mpr hroot⟩

/-- Core takes the root of a positive number at an exponent of at most half of its own. -/
theorem exists_sqrt_eq {s : Nat} (e : Int) (hs : 0 < s) :
    ∃ low accuracy, 2 * low ≤ e ∧ low ≤ max (((s.log2 : Int) + e + 2) / 2 - 53) (-1074) ∧
      UnpackedFloat.sqrt Format.binary64 (.finite .positive s e hs) =
        roundWithAccuracy Format.binary64 .positive (Nat.sqrt (s <<< (e - 2 * low).toNat)) low
          accuracy := by
  have htarget : Format.binary64.targetExponent ((totalExponent s e + 1).ediv 2) =
      max (((s.log2 : Int) + 1 + e + 1) / 2 - 53) (-1074) := rfl
  have hhalf : e.ediv 2 = e / 2 := rfl
  refine ⟨min (e.ediv 2) (Format.binary64.targetExponent ((totalExponent s e + 1).ediv 2)), _,
    ?_, ?_, rfl⟩ <;> rw [htarget, hhalf] <;> omega

/-- **The root of a positive number is positive.** -/
theorem zero_lt_sqrt (h : Unsigned x) (hpos : 0 < code x) : 0.0 < x.sqrt := by
  have hcode : code x.sqrt = (UnpackedFloat.pack Format.binary64
      (UnpackedFloat.sqrt Format.binary64 x.toModel.unpack)).toNat := rfl
  suffices hroot : 0 < code x.sqrt ∧ Unsigned x.sqrt from
    (lt_iff_code_lt parts_zero.unsigned hroot.2).mpr hroot.1
  unfold Unsigned
  rw [hcode]
  rcases h.bounded_or_eq with hbounded | rfl
  · obtain ⟨s, e, hx⟩ := hbounded.exists_parts
    have hs : 0 < s := by
      have hnormal := hx.normal
      have hcode := hx.code_eq
      by_contra hzero
      obtain rfl : s = 0 := by omega
      obtain rfl : e = -1074 := by omega
      exact hpos.ne hcode.symm
    have hle := hx.le
    obtain ⟨low, accuracy, hlow, hlow', hsqrt⟩ := exists_sqrt_eq e hs
    have hradicand : s <<< (e - 2 * low).toNat ≠ 0 := by
      rw [Nat.shiftLeft_eq]
      exact (Nat.mul_pos hs (Nat.two_pow_pos _)).ne'
    obtain ⟨hne, hbits⟩ := log2_le_log2_sqrt hradicand
    rw [log2_shiftLeft hs] at hbits
    rw [hx.unpack_eq, FloatValue.unpacked_of_pos hs, hsqrt]
    -- the root keeps half of the exponent, so it is a normal number even where `x` is not
    exact toNat_pack_pos accuracy hne (by omega) (by omega)
  · decide

end Roots

/-! ### Naturals -/

theorem code_toFloat_toUInt64 {n : Nat} (h : n < 2 ^ 53) :
    code n.toUInt64.toFloat = FloatFormat.binary64.encode (.finite false n 0) := by
  have hn : n.toUInt64.toNat = n := Nat.mod_eq_of_lt (by omega)
  show (UnpackedFloat.pack Format.binary64
    (UnpackedFloat.normalize Format.binary64 (n.toUInt64.toNat : Int) 0 .positive)).toNat = _
  rw [hn]
  rcases Nat.eq_zero_or_pos n with rfl | hpos
  · rfl
  · rw [← toNat_pack_round hpos]
    unfold UnpackedFloat.normalize
    rw [show compare (n : Int) 0 = .gt from Int.compare_eq_gt.mpr (by omega)]
    rfl

/-- A small natural becomes a machine word first. -/
theorem code_ofNat_of_lt {n : Nat} (h : n < 2 ^ 53) :
    code (Float.ofNat n) = FloatFormat.binary64.encode (.finite false n 0) := by
  have hcode := code_toFloat_toUInt64 h
  have hunsigned : Unsigned n.toUInt64.toFloat := by
    unfold Unsigned
    rw [hcode]
    exact FloatFormat.binary64.clampMagnitude_le _
  have hfloat : Float.ofNat n = n.toUInt64.toFloat * 1 := by
    show Float.ofScientific n false 0 = _
    unfold Float.ofScientific
    rw [dif_pos ⟨h, by omega⟩]
    rfl
  rw [hfloat, hunsigned.mul_one_eq, hcode]

/-- A large natural is rounded after its bits have been shifted up. -/
theorem code_ofNat_of_le {n : Nat} (h : 2 ^ 53 ≤ n) :
    code (Float.ofNat n) = FloatFormat.binary64.encode (.finite false n 0) := by
  have hfloat : code (Float.ofNat n) = (UnpackedFloat.pack Format.binary64
      (UnpackedFloat.ofScientific Format.binary64 n 0)).toNat := by
    show code (Float.ofScientific n false 0) = _
    unfold Float.ofScientific
    rw [dif_neg fun hsmall => Nat.not_lt.mpr h hsmall.1]
    rfl
  have hpos : 0 < n <<< 53 * 1 := by
    rw [Nat.mul_one, Nat.shiftLeft_eq]
    omega
  have hlog : 53 ≤ n.log2 := (Nat.le_log2 (by omega)).mpr h
  have hround : UnpackedFloat.ofScientific Format.binary64 n 0 =
      roundWithAccuracy Format.binary64 .positive (n <<< 53 * 1) (-53 + 0) .exact := by
    have hcheck : ¬ (0 : Int) < -((2 ^ 11 : Int) + n.log2) := by omega
    unfold UnpackedFloat.ofScientific
    rw [dif_neg (by omega), if_neg (by decide), if_neg hcheck, if_pos le_rfl]
    rfl
  rw [hfloat, hround, toNat_pack_roundWithAccuracy hpos (by
    rw [Nat.mul_one, log2_shiftLeft (by omega)]
    omega)]
  refine FloatFormat.binary64.encode_congr ?_
  rw [Nat.mul_one, Nat.shiftLeft_eq]
  exact dyadic_shift n 53 0

/-- **A natural is rounded from itself.** -/
theorem code_ofNat (n : Nat) :
    code (Float.ofNat n) = FloatFormat.binary64.encode (.finite false n 0) := by
  rcases Nat.lt_or_ge n (2 ^ 53) with hlt | hge
  · exact code_ofNat_of_lt hlt
  · exact code_ofNat_of_le hge

end FusedGemm
