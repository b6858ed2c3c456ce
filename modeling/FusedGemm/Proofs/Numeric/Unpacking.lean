import FusedGemm.Numeric.Binary64
import FusedGemm.Proofs.Numeric.RoundingOrder

/-!
# Unpacked floats

Core computes with unpacked floats.  A float is unpacked to what the format of 64 bits decodes its
code to (`unpack_eq`; `unpack_of_le` for a float without a sign, `Unsigned`), and core packs a number
to the code that the format rounds it to (`toNat_pack_round`; `toNat_pack_roundWithAccuracy` where
the significand has bits enough).  So the arithmetic of core is that of the format.
-/

namespace FusedGemm

open Float.Model Float.Model.UnpackedFloat

/-! ### The fields of a code -/

theorem toNat_unpackMantissa (b : BitVec 64) :
    (@unpackMantissa Format.binary64 b).toNat = b.toNat % 2 ^ 52 := by
  simp [unpackMantissa]

theorem toNat_unpackExponent (b : BitVec 64) :
    (@unpackExponent Format.binary64 b).toNat = b.toNat / 2 ^ 52 % 2 ^ 11 := by
  simp [unpackExponent, Nat.shiftRight_eq_div_pow]

theorem toNat_unpackSign (b : BitVec 64) :
    (@unpackSign Format.binary64 b).toNat = b.toNat / 2 ^ 63 % 2 := by
  show b.toNat >>> 63 % 2 = _
  rw [Nat.shiftRight_eq_div_pow]

theorem toNat_packComponents (s : Sign) (e : BitVec 11) (m : BitVec 52) :
    (packComponents Format.binary64 s e m).toNat =
      s.toBitVec.toNat * 2 ^ 63 + e.toNat * 2 ^ 52 + m.toNat := by
  unfold packComponents
  rw [BitVec.toNat_append, ← Nat.shiftLeft_add_eq_or_of_lt m.isLt, BitVec.toNat_append,
    ← Nat.shiftLeft_add_eq_or_of_lt e.isLt, Nat.shiftLeft_eq, Nat.shiftLeft_eq]
  show (s.toBitVec.toNat * 2 ^ 11 + e.toNat) * 2 ^ 52 + m.toNat = _
  omega

/-! ### Floats as numbers -/

/-- The code of a float. -/
def code (x : Float) : Nat := x.toBits.toNat

/-- The float is zero, positive or infinite, and has no sign. -/
def Unsigned (x : Float) : Prop := code x ≤ FloatFormat.binary64.infinityCode

instance (x : Float) : Decidable (Unsigned x) := inferInstanceAs (Decidable (_ ≤ _))

theorem code_inj {x y : Float} (h : code x = code y) : x = y := by
  obtain ⟨⟨bits, valid⟩⟩ := x
  obtain ⟨⟨bits', valid'⟩⟩ := y
  obtain rfl : bits = bits' := UInt64.toNat_inj.mp h
  rfl

namespace FloatValue

/-- The unpacked float of a number without a sign. -/
def unpacked : FloatValue → UnpackedFloat
  | .finite _ s e =>
    if h : s = 0 then .zero .positive else .finite .positive s e (Nat.pos_of_ne_zero h)
  | .infinite _ => .infinity .positive
  | .nan => .notANumber

theorem unpacked_of_pos {negative : Bool} {s : Nat} (hs : 0 < s) (e : Int) :
    (finite negative s e).unpacked = .finite .positive s e hs :=
  dif_neg hs.ne'

/-- The sign of a number. -/
def signOf (negative : Bool) : Sign := if negative then .negative else .positive

/-- The unpacked float of a number. -/
def toUnpacked : FloatValue → UnpackedFloat
  | .finite negative s e =>
    if h : s = 0 then .zero (signOf negative)
    else .finite (signOf negative) s e (Nat.pos_of_ne_zero h)
  | .infinite negative => .infinity (signOf negative)
  | .nan => .notANumber

theorem toUnpacked_of_pos {negative : Bool} {s : Nat} (hs : 0 < s) (e : Int) :
    (finite negative s e).toUnpacked = .finite (signOf negative) s e hs :=
  dif_neg hs.ne'

end FloatValue

theorem magnitudeValue_of_subnormal {negative : Bool} {n : Nat} (h : n / 2 ^ 52 = 0) :
    FloatFormat.binary64.magnitudeValue negative n = .finite negative (n % 2 ^ 52) (-1074) :=
  if_pos h

theorem magnitudeValue_of_normal {negative : Bool} {n : Nat} (h : n / 2 ^ 52 ≠ 0) :
    FloatFormat.binary64.magnitudeValue negative n =
      .finite negative (2 ^ 52 + n % 2 ^ 52) (-1074 + (n / 2 ^ 52 - 1 : Nat)) :=
  if_neg h

/-- **What a code is unpacked to.** -/
theorem unpack_eq (b : BitVec 64) :
    UnpackedFloat.unpack Format.binary64 b = (FloatFormat.binary64.decode b.toNat).toUnpacked := by
  obtain ⟨n, hn⟩ : ∃ n, n = b.toNat % 2 ^ 63 := ⟨_, rfl⟩
  obtain ⟨negative, hnegative⟩ : ∃ c, c = (b.toNat / 2 ^ 63 % 2 == 1) := ⟨_, rfl⟩
  have hdecode : FloatFormat.binary64.decode b.toNat =
      if n ≤ 2047 * 2 ^ 52 - 1 then FloatFormat.binary64.magnitudeValue negative n
      else if n == 2047 * 2 ^ 52 then .infinite negative else .nan := by
    rw [hn, hnegative]
    rfl
  have hmantissa : (@unpackMantissa Format.binary64 b).toNat = n % 2 ^ 52 := by
    rw [toNat_unpackMantissa]
    omega
  have hexponent : (@unpackExponent Format.binary64 b).toNat = n / 2 ^ 52 := by
    rw [toNat_unpackExponent]
    omega
  have hsign : Sign.ofBitVec (@unpackSign Format.binary64 b) = FloatValue.signOf negative := by
    have hbit : @unpackSign Format.binary64 b = BitVec.ofNat 1 (b.toNat / 2 ^ 63 % 2) := by
      rw [← BitVec.toNat_inj, toNat_unpackSign]
      exact (Nat.mod_mod _ 2).symm
    rw [hbit, hnegative]
    rcases Nat.mod_two_eq_zero_or_one (b.toNat / 2 ^ 63) with h | h <;> rw [h] <;> rfl
  have hones : @unpackExponent Format.binary64 b = -1#_ ↔ n / 2 ^ 52 = 2047 := by
    rw [← BitVec.toNat_inj, hexponent]
    exact Iff.rfl
  have hzero : @unpackExponent Format.binary64 b = 0#_ ↔ n / 2 ^ 52 = 0 := by
    rw [← BitVec.toNat_inj, hexponent]
    exact Iff.rfl
  have hempty : @unpackMantissa Format.binary64 b = 0#_ ↔ n % 2 ^ 52 = 0 := by
    rw [← BitVec.toNat_inj, hmantissa]
    exact Iff.rfl
  rw [hdecode]
  unfold UnpackedFloat.unpack
  dsimp only
  rw [hsign]
  by_cases hlarge : n / 2 ^ 52 = 2047
  · have hbeyond : ¬ n ≤ 2047 * 2 ^ 52 - 1 := by omega
    rw [if_pos (hones.mpr hlarge), if_neg hbeyond]
    by_cases hrest : n % 2 ^ 52 = 0
    · obtain rfl : n = 2047 * 2 ^ 52 := by omega
      exact if_pos (hempty.mpr rfl)
    · have hnan : ¬ (n == 2047 * 2 ^ 52) = true := by
        rw [beq_iff_eq]
        omega
      rw [if_neg hnan]
      exact if_neg (hempty.not.mpr hrest)
  have hwithin : n ≤ 2047 * 2 ^ 52 - 1 := by omega
  rw [if_neg (hones.not.mpr hlarge), if_pos hwithin]
  by_cases hfield : n / 2 ^ 52 = 0
  · have hvalue : FloatFormat.binary64.magnitudeValue negative n =
        .finite negative (n % 2 ^ 52) (-1074) :=
      magnitudeValue_of_subnormal hfield
    rw [if_pos (hzero.mpr hfield), hvalue]
    by_cases hnull : n % 2 ^ 52 = 0
    · rw [dif_pos (hempty.mpr hnull), hnull]
      rfl
    · rw [dif_neg (hempty.not.mpr hnull),
        FloatValue.toUnpacked_of_pos (Nat.pos_of_ne_zero hnull)]
      refine (UnpackedFloat.finite.injEq ..).mpr ⟨rfl, hmantissa, ?_⟩
      rw [hexponent, hfield]
      rfl
  · have hvalue : FloatFormat.binary64.magnitudeValue negative n =
        .finite negative (2 ^ 52 + n % 2 ^ 52) (-1074 + (n / 2 ^ 52 - 1 : Nat)) :=
      magnitudeValue_of_normal hfield
    rw [if_neg (hzero.not.mpr hfield), hvalue, FloatValue.toUnpacked_of_pos (by omega)]
    refine (UnpackedFloat.finite.injEq ..).mpr ⟨rfl, ?_, ?_⟩
    · rw [BitVec.toNat_append, ← Nat.shiftLeft_add_eq_or_of_lt (BitVec.isLt _), hmantissa]
      rfl
    · have hbias : ((Format.binary64.exponentBias : Nat) : Int) = 1023 := rfl
      rw [hexponent, hbias]
      omega

theorem toUnpacked_decode_of_le {n : Nat} (h : n ≤ FloatFormat.binary64.infinityCode) :
    (FloatFormat.binary64.decode n).toUnpacked = (FloatFormat.binary64.decode n).unpacked := by
  rcases Nat.lt_or_ge FloatFormat.binary64.maxCode n with hlarge | hsmall
  · rw [FloatFormat.decode_of_lt _ hlarge h]
    rfl
  · obtain ⟨s, e, heq⟩ := FloatFormat.binary64.exists_magnitudeValue_eq n
    rw [FloatFormat.decode_of_le _ hsmall, heq]
    rfl

/-- What a code without a sign is unpacked to. -/
theorem unpack_of_le {b : BitVec 64} (h : b.toNat ≤ FloatFormat.binary64.infinityCode) :
    UnpackedFloat.unpack Format.binary64 b = (FloatFormat.binary64.decode b.toNat).unpacked := by
  rw [unpack_eq, toUnpacked_decode_of_le h]

/-- The significand and the exponent of a finite code, which is their concatenation. -/
theorem exists_of_le_maxCode {n : Nat} (h : n ≤ FloatFormat.binary64.maxCode) :
    ∃ s e, FloatFormat.binary64.decode n = .finite false s e ∧ s < 2 ^ 53 ∧ -1074 ≤ e ∧
      (2 ^ 52 ≤ s ∨ e = -1074) ∧ n = (e + 1074).toNat * 2 ^ 52 + s := by
  rw [FloatFormat.decode_of_le _ h]
  by_cases hfield : n / 2 ^ 52 = 0
  · exact ⟨_, _, magnitudeValue_of_subnormal hfield, by omega, le_rfl, Or.inr rfl, by omega⟩
  · exact ⟨_, _, magnitudeValue_of_normal hfield, by omega, by omega, Or.inl (by omega), by omega⟩

/-! ### Rounding -/

theorem shiftRight_succ (m k : Nat) :
    (⟨m, false, false⟩ : ExtendedMantissa) >>> (k + 1) =
      ⟨m / 2 ^ (k + 1), m / 2 ^ k % 2 != 0, m % 2 ^ k != 0⟩ := by
  induction k with
  | zero =>
    show ExtendedMantissa.mk (m / 2) (m % 2 != 0) (false || false) = _
    simp [Nat.mod_one]
  | succ k ih =>
    show ((⟨m, false, false⟩ : ExtendedMantissa) >>> (k + 1)).shiftRightOne = _
    rw [ih]
    have hsticky : (m / 2 ^ k % 2 != 0 || m % 2 ^ k != 0) = (m % 2 ^ (k + 1) != 0) := by
      have hsplit : m % 2 ^ (k + 1) = m % 2 ^ k + 2 ^ k * (m / 2 ^ k % 2) := by
        rw [Nat.pow_succ, Nat.mod_mul]
      have hpos := Nat.two_pow_pos k
      rcases Nat.mod_two_eq_zero_or_one (m / 2 ^ k) with hbit | hbit <;> rw [hsplit, hbit]
      · simp
      · simp
    unfold ExtendedMantissa.shiftRightOne
    rw [hsticky, Nat.div_div_eq_div_mul, ← Nat.pow_succ]

/-- **Core rounds a shifted mantissa to the nearest, ties to even.** -/
theorem roundedMantissa_shiftRight (m k : Nat) :
    ((⟨m, false, false⟩ : ExtendedMantissa) >>> k).roundedMantissa =
      Tie.toEven.roundDiv m (2 ^ k) := by
  cases k with
  | zero =>
    show m = _
    simp [Tie.roundDiv, Nat.mod_one]
  | succ k =>
    have hsplit : m % 2 ^ (k + 1) = m % 2 ^ k + 2 ^ k * (m / 2 ^ k % 2) := by
      rw [Nat.pow_succ, Nat.mod_mul]
    have hrest := Nat.mod_lt m (Nat.two_pow_pos k)
    have hdouble : 2 ^ (k + 1) = 2 * 2 ^ k := by rw [Nat.pow_succ, Nat.mul_comm]
    rw [shiftRight_succ]
    unfold Tie.roundDiv
    rw [hsplit, hdouble]
    -- the round bit tells the half of the unit, the sticky bit whether it is the middle
    rcases Nat.mod_two_eq_zero_or_one (m / 2 ^ k) with hbit | hbit <;>
      rcases Nat.eq_zero_or_pos (m % 2 ^ k) with hzero | hpos <;>
      rw [hbit]
    · rw [hzero, if_pos (by omega)]
      rfl
    · have hsticky : (m % 2 ^ k != 0) = true := bne_iff_ne.mpr (by omega)
      rw [hsticky, if_pos (by omega)]
      rfl
    · rw [hzero, if_neg (by omega), if_neg (by omega)]
      rfl
    · have hsticky : (m % 2 ^ k != 0) = true := bne_iff_ne.mpr (by omega)
      rw [hsticky, if_neg (by omega), if_pos (by omega)]
      rfl

/-- The exponent at which core keeps a number of 53 bits. -/
theorem targetExponent_eq (m : Nat) (e : Int) :
    Format.binary64.targetExponent (totalExponent m e) = max (m.log2 + e - 52) (-1074) := by
  show max (((m.log2 : Int) + 1 + e) - 53) (3 - 1024 - 53) = _
  omega

/-- A mantissa of at most 53 bits stays as it is. -/
theorem shiftToTargetExponent_of_lt {m : Nat} {e : Int} (hm : m < 2 ^ 53) (he : -1074 ≤ e) :
    shiftToTargetExponent Format.binary64 m e .exact = (⟨m, false, false⟩, e) := by
  have hlog : m.log2 ≤ 52 := by
    by_cases hzero : m = 0
    · simp [hzero]
    · have := (Nat.log2_lt hzero).mpr hm
      omega
  have hshift : (max ((m.log2 : Int) + e - 52) (-1074) - e).toNat = 0 := by omega
  unfold shiftToTargetExponent shiftToExponent
  rw [targetExponent_eq]
  dsimp only
  rw [hshift]
  show (_, e + 0) = _
  rw [add_zero]
  rfl

/-- A carry out of 53 bits is shifted back. -/
theorem shiftToTargetExponent_two_pow {e : Int} (he : -1074 ≤ e) :
    shiftToTargetExponent Format.binary64 (2 ^ 53) e .exact = (⟨2 ^ 52, false, false⟩, e + 1) := by
  have hshift : (max (((2 ^ 53 : Nat).log2 : Int) + e - 52) (-1074) - e).toNat = 1 := by
    rw [Nat.log2_two_pow]
    omega
  unfold shiftToTargetExponent shiftToExponent
  rw [targetExponent_eq]
  dsimp only
  rw [hshift]
  rfl

/-- The code of a number is that of infinity if its exponent is too large, and has no exponent field
if its mantissa is too short. -/
theorem pack_finite (s : Sign) (m : Nat) (e : Int) (hm : 0 < m) :
    UnpackedFloat.pack Format.binary64 (.finite s m e hm) =
      if 2 ^ 11 ≤ (e + (1023 : Nat) + (52 : Nat)).toNat + 1 then packedInfinity Format.binary64 s
      else if m.log2 + 1 = 53 then packComponents Format.binary64 s
        (BitVec.ofNat 11 (e + (1023 : Nat) + (52 : Nat)).toNat) (BitVec.ofNat 52 m)
      else packComponents Format.binary64 s 0#11 (BitVec.ofNat 52 m) :=
  rfl

/-- The code of a mantissa that has 53 bits or the least exponent. -/
theorem toNat_pack {r : Nat} {t : Int} (hpos : 0 < r) (hlt : r < 2 ^ 53) (ht : -1074 ≤ t)
    (hnormal : 2 ^ 52 ≤ r ∨ t = -1074) :
    (UnpackedFloat.pack Format.binary64 (.finite .positive r t hpos)).toNat =
      FloatFormat.binary64.clampMagnitude ((t + 1074).toNat * 2 ^ 52 + r) := by
  have hclamp : ∀ n, FloatFormat.binary64.clampMagnitude n =
      if n ≤ 2047 * 2 ^ 52 - 1 then n else 2047 * 2 ^ 52 := fun _ => rfl
  have hbiased : (t + (1023 : Nat) + (52 : Nat)).toNat = (t + 1074).toNat + 1 := by omega
  have hlog : r.log2 + 1 = 53 ↔ 2 ^ 52 ≤ r := by
    rw [← Nat.le_log2 hpos.ne']
    have := (Nat.log2_lt hpos.ne').mpr hlt
    omega
  rw [pack_finite, hbiased, hclamp]
  split_ifs with hinfinite hfits hbits
  · omega
  · rfl
  · rw [hlog] at hbits
    rw [toNat_packComponents, BitVec.toNat_ofNat, BitVec.toNat_ofNat]
    show 0 * 2 ^ 63 + _ + _ = _
    omega
  · omega
  · rw [hlog] at hbits
    rw [toNat_packComponents]
    show 0 * 2 ^ 63 + 0 * 2 ^ 52 + r % 2 ^ 52 = _
    omega
  · omega

/-- The code of what is rounded to at most 53 bits, or to the power of two above them. -/
theorem toNat_pack_of_first {m r : Nat} {e t : Int} {accuracy : Accuracy} {em : ExtendedMantissa}
    (hfirst : shiftToTargetExponent Format.binary64 m e accuracy = (em, t))
    (hr : em.roundedMantissa = r) (hle : r ≤ 2 ^ 53) (ht : -1074 ≤ t)
    (hnormal : 2 ^ 52 ≤ r ∨ t = -1074) :
    (UnpackedFloat.pack Format.binary64
      (roundWithAccuracy Format.binary64 .positive m e accuracy)).toNat =
      FloatFormat.binary64.clampMagnitude ((t + 1074).toNat * 2 ^ 52 + r) := by
  unfold roundWithAccuracy
  rw [hfirst]
  dsimp only
  rw [hr]
  rcases Nat.lt_or_eq_of_le hle with hlt | rfl
  · rw [shiftToTargetExponent_of_lt hlt ht]
    rcases Nat.eq_zero_or_pos r with rfl | hpos
    · -- only the smallest numbers are rounded to zero
      obtain rfl : t = -1074 := hnormal.resolve_left (by omega)
      rfl
    · refine Eq.trans ?_ (toNat_pack hpos hlt ht hnormal)
      refine congrArg (fun u => (UnpackedFloat.pack Format.binary64 u).toNat) ?_
      exact dif_neg hpos.ne'
  · -- a carry is the same code in the next binade
    rw [shiftToTargetExponent_two_pow ht]
    refine (toNat_pack (r := 2 ^ 52) (t := t + 1) (by omega) (by omega) (by omega)
      (Or.inl le_rfl)).trans ?_
    refine congrArg _ ?_
    omega

section Rounding
variable {m : Nat} {e : Int}

theorem log2_shiftLeft (hm : 0 < m) (k : Nat) : (m <<< k).log2 = m.log2 + k := by
  have hlow := Nat.mul_le_mul_right (2 ^ k) (Nat.log2_self_le hm.ne')
  have hhigh := Nat.mul_lt_mul_of_pos_right (@Nat.lt_log2_self m) (Nat.two_pow_pos k)
  rw [← Nat.pow_add] at hlow hhigh
  rw [Nat.shiftLeft_eq, Nat.log2_eq_iff (Nat.mul_pos hm (Nat.two_pow_pos k)).ne']
  exact ⟨hlow, by rwa [Nat.add_right_comm]⟩

/-- The format rounds a number to the 53 bits that it keeps of it. -/
theorem encode_finite (hm : 0 < m) {t : Int} (ht : t = max ((m.log2 : Int) + e - 52) (-1074)) :
    FloatFormat.binary64.encode (.finite false m e) = FloatFormat.binary64.clampMagnitude
      ((t + 1074).toNat * 2 ^ 52 + Tie.toEven.scale m (e - t)) := by
  have hbinade : max ((m.log2 : Int) + e) (-1022) = t + 52 := by omega
  have hround : FloatFormat.binary64.roundMagnitude m e =
      (max ((m.log2 : Int) + e) (-1022) - -1022).toNat * 2 ^ 52 +
        Tie.toEven.scale m (e - (max ((m.log2 : Int) + e) (-1022) - 52)) := if_neg hm.ne'
  rw [hbinade, add_sub_cancel_right, show t + 52 - -1022 = t + 1074 by omega] at hround
  rw [← hround]
  rfl

/-- **Core rounds a number as the format does**, if it has bits enough. -/
theorem toNat_pack_roundWithAccuracy (hm : 0 < m) (he : e ≤ max (m.log2 + e - 52) (-1074)) :
    (UnpackedFloat.pack Format.binary64
      (roundWithAccuracy Format.binary64 .positive m e .exact)).toNat =
      FloatFormat.binary64.encode (.finite false m e) := by
  set t := max ((m.log2 : Int) + e - 52) (-1074) with ht
  have hscale : Tie.toEven.scale m (e - t) = Tie.toEven.roundDiv m (2 ^ (t - e).toNat) := by
    rw [Tie.toEven.scale_eq_roundDiv m (show 0 ≤ e - t + (t - e).toNat by omega),
      show (e - t + (t - e).toNat).toNat = 0 by omega, Nat.pow_zero, Nat.mul_one]
  have hfirst : shiftToTargetExponent Format.binary64 m e .exact =
      ((⟨m, false, false⟩ : ExtendedMantissa) >>> (t - e).toNat, t) := by
    unfold shiftToTargetExponent shiftToExponent
    rw [targetExponent_eq, ← ht]
    refine Prod.ext rfl ?_
    dsimp only
    omega
  have hle : Tie.toEven.scale m (e - t) ≤ 2 ^ 53 := Tie.toEven.scale_le_two_pow (by omega)
  have hnormal : 2 ^ 52 ≤ Tie.toEven.scale m (e - t) ∨ t = -1074 := by
    by_cases hmin : t = -1074
    · exact Or.inr hmin
    · exact Or.inl (Tie.toEven.two_pow_le_scale hm.ne' (by omega))
  rw [encode_finite hm ht]
  exact toNat_pack_of_first hfirst ((roundedMantissa_shiftRight m _).trans hscale.symm) hle
    (by omega) hnormal

/-- Core shifts a number to as many bits as it needs. -/
theorem toNat_pack_round (hm : 0 < m) :
    (UnpackedFloat.pack Format.binary64 (UnpackedFloat.round Format.binary64 .positive m e)).toNat =
      FloatFormat.binary64.encode (.finite false m e) := by
  unfold UnpackedFloat.round decreaseExponent
  rw [targetExponent_eq]
  dsimp only
  set k := (e - max ((m.log2 : Int) + e - 52) (-1074)).toNat with hk
  have hpos : 0 < m <<< k := by
    rw [Nat.shiftLeft_eq]
    exact Nat.mul_pos hm (Nat.two_pow_pos k)
  have hlog := log2_shiftLeft hm k
  rw [toNat_pack_roundWithAccuracy hpos (by rw [hlog]; omega)]
  refine FloatFormat.encode_congr _ ?_
  rw [Nat.shiftLeft_eq, dyadic_shift]

end Rounding

end FusedGemm
