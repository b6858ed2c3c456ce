import FusedGemm.Proofs.Numeric.Estimating
import FusedGemm.Proofs.Numeric.Quantizing

/-!
# Storing floats in 8 bits

An 8-bit type stores a finite float as the nearest of its values, the one with an even significand
where two are equally near, so a float beyond the largest value becomes that value.  It keeps the
sign of a float and of zero, and NaN; infinities are kept by the type that has them and else become
the largest value (`ElementType.rounds_encode_float8`).  The steps from an estimate of the binary
exponent give the same codes.
-/

namespace FusedGemm

open FloatValue

/-! ### Signs -/

namespace FloatFormat

variable (format : FloatFormat)

theorem withSign_lt (negative : Bool) {n : Nat} (h : n < format.signWeight) :
    format.withSign negative n < 2 * format.signWeight := by
  unfold withSign
  split_ifs <;> omega

theorem encode_lt (hnan : format.nanCode < format.signWeight) (v : FloatValue) :
    format.encode v < 2 * format.signWeight := by
  cases v with
  | nan =>
    show format.nanCode < _
    omega
  | infinite negative => exact format.withSign_lt negative format.overflowCode_lt_signWeight
  | finite negative s e =>
    exact format.withSign_lt negative
      ((format.clampMagnitude_le _).trans_lt format.overflowCode_lt_signWeight)

theorem signWeight_le_withSign (negative : Bool) {n : Nat} (h : n < format.signWeight) :
    format.signWeight ≤ format.withSign negative n ↔ negative = true := by
  unfold withSign
  split_ifs with hnegative
  · exact ⟨fun _ => hnegative, fun _ => Nat.le_add_right _ _⟩
  · exact ⟨fun hle => absurd hle (Nat.not_le.mpr h), fun htrue => absurd htrue hnegative⟩

/-- **A code carries the sign of the number.** -/
theorem signWeight_le_encode {v : FloatValue} (hv : v ≠ .nan) :
    format.signWeight ≤ format.encode v ↔ v.negative = true := by
  cases v with
  | nan => exact absurd rfl hv
  | infinite negative =>
    exact format.signWeight_le_withSign negative format.overflowCode_lt_signWeight
  | finite negative s e =>
    exact format.signWeight_le_withSign negative
      ((format.clampMagnitude_le _).trans_lt format.overflowCode_lt_signWeight)

end FloatFormat

/-! ### Floats -/

section Floats
variable {x : Float}

/-- The rational that a finite float stands for. -/
def rational (x : Float) : ℚ := (ofFloat x).toRat

/-- What a float stands for tells its kind. -/
theorem isNaN_isInf_eq (x : Float) : (x.isNaN, x.isInf) =
    match ofFloat x with
    | .nan => (true, false)
    | .infinite _ => (false, true)
    | .finite _ _ _ => (false, false) := by
  show (x.toModel.unpack.isNaN, x.toModel.unpack.isInf) = _
  rw [unpack_toModel]
  rcases ofFloat x with _ | negative | ⟨negative, s, e⟩
  · rfl
  · rfl
  · rcases Nat.eq_zero_or_pos s with rfl | hpos
    · rfl
    · rw [toUnpacked_of_pos hpos]
      rfl

theorem ofFloat_eq_nan_iff : ofFloat x = .nan ↔ x.isNaN = true := by
  have hkind := isNaN_isInf_eq x
  rcases hvalue : ofFloat x with _ | negative | ⟨negative, s, e⟩ <;> rw [hvalue] at hkind <;>
    rw [(Prod.mk.inj hkind).1] <;> simp

theorem ofFloat_ne_nan (h : x.isNaN = false) : ofFloat x ≠ .nan := by
  rw [Ne, ofFloat_eq_nan_iff, h]
  exact Bool.false_ne_true

theorem exists_infinite (h : x.isInf = true) : ∃ negative, ofFloat x = .infinite negative := by
  have hkind := isNaN_isInf_eq x
  rcases hvalue : ofFloat x with _ | negative | ⟨negative, s, e⟩ <;> rw [hvalue, h] at hkind
  · cases (Prod.mk.inj hkind).2
  · exact ⟨negative, rfl⟩
  · cases (Prod.mk.inj hkind).2

theorem FloatValue.exists_of_isFinite {v : FloatValue} (h : v.isFinite = true) :
    ∃ negative s e, v = .finite negative s e := by
  cases v with
  | nan => cases h
  | infinite negative => cases h
  | finite negative s e => exact ⟨negative, s, e, rfl⟩

theorem exists_finite (h : x.isFinite = true) :
    ∃ negative s e, ofFloat x = .finite negative s e :=
  FloatValue.exists_of_isFinite ((isFinite_eq x).symm.trans h)

/-- The estimate is the binary exponent of the float or off by one, unless the float is
subnormal. -/
def EstimatesExponent (estimate : Int) (x : Float) : Prop :=
  ∀ negative s e, ofFloat x = .finite negative s e → dyadic 1 (-1022) ≤ dyadic s e →
    |estimate - (s.log2 + e)| ≤ 1

/-- The sign of a float is its highest bit. -/
theorem negative_ofFloat (h : x.isNaN = false) :
    (ofFloat x).negative = x.toBits.toBitVec.msb := by
  have hlt : code x < 2 ^ 64 := x.toBits.toBitVec.isLt
  refine (FloatFormat.binary64.negative_decode (ofFloat_ne_nan h)).trans ?_
  rw [BitVec.msb_eq_decide]
  show (code x / 2 ^ 63 % 2 == 1) = decide (2 ^ 63 ≤ code x)
  rw [Bool.eq_iff_iff, beq_iff_eq, decide_eq_true_iff]
  omega

end Floats

namespace ElementType

variable {t : ElementType} {format : FloatFormat}

/-- The element holds a finite number that is preferred to all others of its type for the float:
none is nearer, and if another one is as near then the significand of this one is even. -/
structure Nearest (t : ElementType) (x : Float) (c : Code t) : Prop where
  isFinite : (t.decode c).re.isFinite = true
  prefers : ∀ other : Code t, (t.decode other).re.isFinite = true →
    Prefers (rational x) (rational (t.decode c).re) (rational (t.decode other).re)
      ((t.decodePart c.toNat).significand % 2 = 0)

/-- The element is what an 8-bit type stores of the float. -/
structure Rounds (t : ElementType) (x : Float) (c : Code t) : Prop where
  nan : x.isNaN = true → (t.decode c).re.isNaN = true
  sign : x.isNaN = false → c.msb = x.toBits.toBitVec.msb
  zero : x.isFinite = true → rational x = 0 → c.toNat % 2 ^ 7 = 0
  /-- The type with infinities keeps them. -/
  infinite : t = .f8e5m2 → x.isInf = true → (t.decode c).re.isInf = true
  /-- The type without them stores the largest of its values. -/
  saturated : t = .f8e4m3 → x.isInf = true → (t.decode c).re.isFinite = true ∧
    ∀ other : Code t, (t.decode other).re.isFinite = true →
      |rational (t.decode other).re| ≤ |rational (t.decode c).re|
  nearest : x.isFinite = true → t.Nearest x c

/-- The two 8-bit float formats. -/
theorem eq_of_isFloat8 (h8 : t.isFloat8 = true) (ht : t.encoding = .float format) :
    t = .f8e4m3 ∧ format = .e4m3 ∨ t = .f8e5m2 ∧ format = .e5m2 := by
  cases t
  case f8e4m3 => exact Or.inl ⟨rfl, (Encoding.float.inj ht).symm⟩
  case f8e5m2 => exact Or.inr ⟨rfl, (Encoding.float.inj ht).symm⟩
  all_goals exact absurd h8 (by decide)

theorem encode_lt_float8 (h8 : t.isFloat8 = true) (ht : t.encoding = .float format)
    (v : FloatValue) : format.encode v < 2 ^ t.bits := by
  rcases eq_of_isFloat8 h8 ht with ⟨rfl, rfl⟩ | ⟨rfl, rfl⟩ <;>
    exact FloatFormat.encode_lt _ (by decide) v

theorem toNat_encode_float8 (h8 : t.isFloat8 = true) (ht : t.encoding = .float format) (x : Float) :
    (t.encode (.ofReal x)).toNat = format.encode (ofFloat x) := by
  have hlt := encode_lt_float8 h8 ht (ofFloat x)
  rcases eq_of_isFloat8 h8 ht with ⟨rfl, rfl⟩ | ⟨rfl, rfl⟩ <;> exact Nat.mod_eq_of_lt hlt

/-- Codes are decoded without rounding. -/
theorem decode_float8 (h8 : t.isFloat8 = true) (ht : t.encoding = .float format) (c : Code t) :
    (t.decode c).re.isFinite = (format.decode c.toNat).isFinite ∧
      rational (t.decode c).re = (format.decode c.toNat).toRat := by
  have hcodes : ∀ format ∈ [FloatFormat.e4m3, .e5m2], ∀ n < 2 ^ 8,
      (ofFloat (format.decode n).toFloat).isFinite = (format.decode n).isFinite ∧
        (ofFloat (format.decode n).toFloat).toRat = (format.decode n).toRat := by
    decide +kernel
  have hlt : c.toNat < 2 ^ 8 := by
    rcases eq_of_isFloat8 h8 ht with ⟨rfl, -⟩ | ⟨rfl, -⟩ <;> exact c.isLt
  have hre : (t.decode c).re = (format.decode c.toNat).toFloat := by
    rcases eq_of_isFloat8 h8 ht with ⟨rfl, rfl⟩ | ⟨rfl, rfl⟩ <;> rfl
  have hmem : format ∈ [FloatFormat.e4m3, .e5m2] := by
    rcases eq_of_isFloat8 h8 ht with ⟨-, rfl⟩ | ⟨-, rfl⟩ <;> decide
  rw [hre, isFinite_eq]
  exact hcodes format hmem _ hlt

/-- The type with infinities keeps them. -/
theorem isInf_encode_float8 (h : t = .f8e5m2) {x : Float} (hx : x.isInf = true) :
    (t.decode (t.encode (.ofReal x))).re.isInf = true := by
  subst h
  obtain ⟨negative, hvalue⟩ := exists_infinite hx
  have hcode := toNat_encode_float8 (t := .f8e5m2) rfl rfl x
  rw [hvalue] at hcode
  cases negative
  · rw [BitVec.eq_of_toNat_eq (y := 0x7c#8) hcode]
    decide +kernel
  · rw [BitVec.eq_of_toNat_eq (y := 0xfc#8) hcode]
    decide +kernel

/-- The type without infinities stores the largest of its values for them. -/
theorem saturated_encode_float8 (h : t = .f8e4m3) {x : Float} (hx : x.isInf = true) :
    (t.decode (t.encode (.ofReal x))).re.isFinite = true ∧
      ∀ other : Code t, (t.decode other).re.isFinite = true →
        |rational (t.decode other).re| ≤ |rational (t.decode (t.encode (.ofReal x))).re| := by
  subst h
  obtain ⟨negative, hvalue⟩ := exists_infinite hx
  have hdecode : FloatFormat.e4m3.decode (ElementType.f8e4m3.encode (.ofReal x)).toNat =
      FloatFormat.e4m3.magnitudeValue negative FloatFormat.e4m3.maxCode := by
    rw [toNat_encode_float8 rfl rfl, hvalue]
    exact FloatFormat.e4m3.decode_withSign negative le_rfl
  refine ⟨?_, fun other hother => ?_⟩
  · rw [(decode_float8 rfl rfl _).1, hdecode]
    exact FloatFormat.isFinite_magnitudeValue _ _ _
  · rw [(decode_float8 rfl rfl _).1] at hother
    rw [(decode_float8 rfl rfl _).2, (decode_float8 rfl rfl _).2, hdecode,
      FloatFormat.abs_toRat_magnitudeValue, ← FloatFormat.toRat_largest]
    exact FloatFormat.e4m3.abs_toRat_decode_le hother

section Float8
variable (h8 : t.isFloat8 = true) (ht : t.encoding = .float format)
include h8 ht

/-- NaN is stored as NaN. -/
theorem isNaN_encode_float8 {x : Float} (hx : x.isNaN = true) :
    (t.decode (t.encode (.ofReal x))).re.isNaN = true := by
  have hcode := toNat_encode_float8 h8 ht x
  rw [ofFloat_eq_nan_iff.mpr hx] at hcode
  rcases eq_of_isFloat8 h8 ht with ⟨rfl, rfl⟩ | ⟨rfl, rfl⟩ <;>
    rw [BitVec.eq_of_toNat_eq (y := 0x7f#8) hcode] <;> decide +kernel

/-- The sign bit is kept. -/
theorem msb_encode_float8 {x : Float} (hx : x.isNaN = false) :
    (t.encode (.ofReal x)).msb = x.toBits.toBitVec.msb := by
  have hweight : format.signWeight = 2 ^ (t.bits - 1) := by
    rcases eq_of_isFloat8 h8 ht with ⟨rfl, rfl⟩ | ⟨rfl, rfl⟩ <;> rfl
  rw [BitVec.msb_eq_decide, toNat_encode_float8 h8 ht, ← negative_ofFloat hx, Bool.eq_iff_iff,
    decide_eq_true_iff, ← hweight]
  exact format.signWeight_le_encode (ofFloat_ne_nan hx)

/-- Zero is stored as zero. -/
theorem encode_float8_of_zero {x : Float} (hx : x.isFinite = true) (hzero : rational x = 0) :
    (t.encode (.ofReal x)).toNat % 2 ^ 7 = 0 := by
  obtain ⟨negative, s, e, hvalue⟩ := exists_finite hx
  have hs : s = 0 := by
    by_contra hpos
    have hdyadic := dyadic_pos (Nat.pos_of_ne_zero hpos) e
    rw [rational, hvalue, toRat] at hzero
    split_ifs at hzero <;> linarith
  have hweight : format.signWeight = 2 ^ 7 := by
    rcases eq_of_isFloat8 h8 ht with ⟨rfl, rfl⟩ | ⟨rfl, rfl⟩ <;> rfl
  have hencode : format.encode (.finite negative 0 e) = format.withSign negative 0 := by
    refine congrArg (format.withSign negative) ?_
    rw [FloatFormat.roundMagnitude, if_pos rfl, FloatFormat.clampMagnitude_zero]
  rw [toNat_encode_float8 h8 ht, hvalue, hs, hencode]
  unfold FloatFormat.withSign
  rw [hweight]
  cases negative <;> rfl

/-- **A finite float is stored as a nearest element.** -/
theorem nearest_encode_float8 {x : Float} (hx : x.isFinite = true) :
    t.Nearest x (t.encode (.ofReal x)) := by
  obtain ⟨negative, s, e, hvalue⟩ := exists_finite hx
  have hbits : 1 ≤ format.mantissaBits ∧ format.saturates = true := by
    rcases eq_of_isFloat8 h8 ht with ⟨-, rfl⟩ | ⟨-, rfl⟩ <;> decide
  obtain ⟨hfinite, hprefers⟩ := format.nearest_encode hbits.1 hbits.2 negative s e
  rw [← hvalue, ← toNat_encode_float8 h8 ht] at hfinite hprefers
  refine ⟨?_, fun other hother => ?_⟩
  · rw [(decode_float8 h8 ht _).1]
    exact hfinite
  · rw [(decode_float8 h8 ht _).1] at hother
    rw [(decode_float8 h8 ht _).2, (decode_float8 h8 ht _).2, decodePart_of_float ht]
    exact hprefers _ hother

/-- **The steps from an estimate of the binary exponent give the same code.** -/
theorem encodeFrom_eq_encode {estimate : Int} {x : Float} (h : EstimatesExponent estimate x) :
    format.encodeFrom estimate (ofFloat x) = format.encode (ofFloat x) := by
  have hformat : format.saturates = true ∧ -16 ≤ format.minQuantum := by
    rcases eq_of_isFloat8 h8 ht with ⟨-, rfl⟩ | ⟨-, rfl⟩ <;> decide
  refine format.encodeFrom_eq hformat.1 fun negative s e hvalue hs => ?_
  rcases le_or_gt (dyadic 1 (-1022)) (dyadic s e) with hnormal | hsubnormal
  · exact Or.inl (h negative s e hvalue hnormal)
  · -- a subnormal float is far below the values of the type
    right
    have hdouble : 2 * dyadic 1 (-1022) = dyadic 1 (-1021) := by
      rw [dyadic, dyadic, Nat.cast_one, one_mul, one_mul]
      exact (zpow_one_add₀ two_ne_zero _).symm
    have hle : dyadic 1 (-1021) ≤ dyadic 1 format.minQuantum := one_dyadic_le_iff.mpr (by omega)
    linarith

end Float8

/-- **The 8-bit types round correctly and saturate**, also in steps from an estimate of the binary
exponent. -/
theorem rounds_encode_float8 (h8 : t.isFloat8 = true) (ht : t.encoding = .float format)
    (x : Float) : t.Rounds x (t.encode (.ofReal x)) ∧
      ∀ estimate, EstimatesExponent estimate x →
        BitVec.ofNat _ (format.encodeFrom estimate (ofFloat x)) = t.encode (.ofReal x) := by
  refine ⟨⟨isNaN_encode_float8 h8 ht, msb_encode_float8 h8 ht, encode_float8_of_zero h8 ht,
    fun heq hx => isInf_encode_float8 heq hx, fun heq hx => saturated_encode_float8 heq hx,
    nearest_encode_float8 h8 ht⟩, fun estimate hestimate => ?_⟩
  apply BitVec.eq_of_toNat_eq
  rw [toNat_encode_float8 h8 ht, encodeFrom_eq_encode h8 ht hestimate, BitVec.toNat_ofNat,
    Nat.mod_eq_of_lt (encode_lt_float8 h8 ht _)]

/-- The number 1.1875 is halfway between 1.125 and 1.25, and goes to the latter, also from an
estimate of its binary exponent that is too large. -/
theorem rounds_encode_float8_half : ElementType.f8e4m3.isFloat8 = true ∧ EstimatesExponent 1 1.1875 ∧
    ElementType.f8e4m3.Rounds 1.1875 0x3a#8 ∧
    BitVec.ofNat 8 (FloatFormat.e4m3.encodeFrom 1 (ofFloat 1.1875)) = 0x3a#8 := by
  have hvalue : ofFloat 1.1875 = .finite false (19 * 2 ^ 48) (-52) := by decide +kernel
  have hestimate : EstimatesExponent 1 1.1875 := by
    intro negative s e heq _
    obtain ⟨-, rfl, rfl⟩ := FloatValue.finite.inj (hvalue.symm.trans heq)
    decide +kernel
  have hcode : ElementType.f8e4m3.encode (.ofReal 1.1875) = 0x3a#8 :=
    BitVec.eq_of_toNat_eq (by decide +kernel)
  obtain ⟨hrounds, hsteps⟩ := @rounds_encode_float8 .f8e4m3 .e4m3 rfl rfl 1.1875
  rw [hcode] at hrounds hsteps
  exact ⟨rfl, hestimate, hrounds, hsteps 1 hestimate⟩

end ElementType

end FusedGemm
