import FusedGemm.Proofs.Numeric.Float8

/-!
# Codes with signs

A code that stands for a number or an infinity is its sign bit and a magnitude that is infinity at
most (`FloatFormat.withSign_decode`), and rounding goes by the sign and the number without it
(`FloatFormat.encode_eq_withSign`), so every such code is rounded to itself
(`FloatFormat.encode_decode_of_ne_nan`).  Core packs and unpacks floats in the same way
(`toNat_pack_toUnpacked`), so that making a float of a number is rounding it to the format of 64
bits (`ofFloat_toFloat`).
-/

namespace FusedGemm

open Float.Model Float.Model.UnpackedFloat

/-! ### Codes of a format -/

namespace FloatValue

theorem abs_ne_nan {v : FloatValue} (hv : v ≠ .nan) : v.abs ≠ .nan := by
  cases v with
  | nan => exact absurd rfl hv
  | infinite negative => exact FloatValue.noConfusion
  | finite negative s e => exact FloatValue.noConfusion

theorem below_abs {v : FloatValue} (hv : v ≠ .nan) : v.abs.Below v.abs := by
  cases v with
  | nan => exact absurd rfl hv
  | infinite negative => exact trivial
  | finite negative s e => exact le_refl (dyadic s e)

end FloatValue

namespace FloatFormat

variable (format : FloatFormat)

theorem withSign_mod (negative : Bool) {n : Nat} (h : n < format.signWeight) :
    format.withSign negative n % format.signWeight = n := by
  unfold withSign
  split_ifs
  · rw [Nat.add_mod_left, Nat.mod_eq_of_lt h]
  · exact Nat.mod_eq_of_lt h

/-- Rounding goes by the sign and by the number without it. -/
theorem encode_eq_withSign {v : FloatValue} (hv : v ≠ .nan) :
    format.encode v = format.withSign v.negative (format.encode v.abs) := by
  cases v with
  | nan => exact absurd rfl hv
  | infinite negative => rfl
  | finite negative s e => rfl

/-- Without its sign bit, a code that is not one of NaN is that of infinity at most. -/
theorem mod_le_overflowCode {code : Nat} (h : format.decode code ≠ .nan) :
    code % format.signWeight ≤ format.overflowCode := by
  by_contra hlarge
  have hnan := format.decode_of_overflowCode_lt (Nat.lt_of_not_le hlarge)
    (Nat.mod_lt code (Nat.two_pow_pos _))
  rw [format.decode_mod] at hnan
  exact FloatValue.abs_ne_nan h hnan

/-- A code is its sign bit and its magnitude. -/
theorem withSign_decode {code : Nat} (hlt : code < 2 * format.signWeight)
    (h : format.decode code ≠ .nan) :
    format.withSign (format.decode code).negative (code % format.signWeight) = code := by
  have hpos : 0 < format.signWeight := Nat.two_pow_pos _
  have hsplit := Nat.div_add_mod code format.signWeight
  have hdiv : code / format.signWeight < 2 := Nat.div_lt_of_lt_mul (by omega)
  rw [format.negative_decode h]
  unfold withSign
  rcases Nat.eq_zero_or_pos (code / format.signWeight) with hzero | hone
  · rw [hzero] at hsplit ⊢
    rw [if_neg (by decide)]
    omega
  · have hone : code / format.signWeight = 1 := by omega
    rw [hone] at hsplit ⊢
    rw [if_pos (by decide)]
    omega

/-- **A code is rounded to itself**, also one with a sign. -/
theorem encode_decode_of_ne_nan {code : Nat} (hlt : code < 2 * format.signWeight)
    (h : format.decode code ≠ .nan) : format.encode (format.decode code) = code := by
  rw [format.encode_eq_withSign h, ← format.decode_mod,
    format.encode_decode (format.mod_le_overflowCode h), format.withSign_decode hlt h]

/-- What is not NaN is not rounded to NaN. -/
theorem round_ne_nan {v : FloatValue} (hv : v ≠ .nan) : format.round v ≠ .nan := by
  have hbelow := FloatValue.below_abs hv
  have hle := format.encode_le hbelow
  have hmod : format.encode v % format.signWeight = format.encode v.abs := by
    rw [format.encode_eq_withSign hv]
    exact format.withSign_mod _ (hle.trans_lt format.overflowCode_lt_signWeight)
  intro hnan
  have habs := format.decode_mod (format.encode v)
  rw [hmod, show format.decode (format.encode v) = .nan from hnan] at habs
  have hself := format.decode_mono (le_refl (format.encode v.abs)) hle
  rw [habs] at hself
  exact hself

end FloatFormat

/-! ### Codes of floats -/

namespace FloatValue

theorem unpacked_abs (v : FloatValue) : v.abs.unpacked = v.unpacked := by cases v <;> rfl

end FloatValue

/-- Packing puts the sign into the sign bit. -/
theorem toNat_pack_toUnpacked {v : FloatValue} (hv : v ≠ .nan) :
    (UnpackedFloat.pack Format.binary64 v.toUnpacked).toNat =
      FloatFormat.binary64.withSign v.negative
        (UnpackedFloat.pack Format.binary64 v.unpacked).toNat := by
  have hcomponents : ∀ (e : BitVec 11) (m : BitVec 52),
      (packComponents Format.binary64 .negative e m).toNat =
        2 ^ 63 + (packComponents Format.binary64 .positive e m).toNat := by
    intro e m
    rw [toNat_packComponents, toNat_packComponents]
    show 1 * 2 ^ 63 + _ + _ = 2 ^ 63 + (0 * 2 ^ 63 + _ + _)
    omega
  cases v with
  | nan => exact absurd rfl hv
  | infinite negative =>
    cases negative with
    | false => rfl
    | true => exact hcomponents _ _
  | finite negative s e =>
    rcases Nat.eq_zero_or_pos s with rfl | hpos
    · cases negative with
      | false => rfl
      | true => exact hcomponents _ _
    · rw [FloatValue.toUnpacked_of_pos hpos, FloatValue.unpacked_of_pos hpos]
      cases negative with
      | false => rfl
      | true =>
        show (UnpackedFloat.pack Format.binary64 (.finite .negative s e hpos)).toNat =
          2 ^ 63 + (UnpackedFloat.pack Format.binary64 (.finite .positive s e hpos)).toNat
        rw [pack_finite, pack_finite]
        split_ifs <;> exact hcomponents _ _

/-- The float with a code, which may have a sign. -/
theorem code_ofBits_of_ne_nan {n : Nat} (hlt : n < 2 ^ 64)
    (h : FloatFormat.binary64.decode n ≠ .nan) : code (Float.ofBits (UInt64.ofNat n)) = n := by
  have hbits : (UInt64.ofNat n).toBitVec.toNat = n := Nat.mod_eq_of_lt hlt
  have hmagnitude : (FloatFormat.binary64.decode n).unpacked =
      (FloatFormat.binary64.decode (n % FloatFormat.binary64.signWeight)).unpacked := by
    rw [FloatFormat.binary64.decode_mod, FloatValue.unpacked_abs]
  show (UnpackedFloat.pack Format.binary64
    (UnpackedFloat.unpack Format.binary64 (UInt64.ofNat n).toBitVec)).toNat = n
  rw [unpack_eq, hbits, toNat_pack_toUnpacked h, hmagnitude,
    toNat_pack_unpacked (FloatFormat.binary64.mod_le_overflowCode h)]
  exact FloatFormat.binary64.withSign_decode hlt h

section Floats
variable {v : FloatValue}

/-- **Narrowing to a float is rounding**, also of numbers with a sign. -/
theorem code_toFloat_of_ne_nan (hv : v ≠ .nan) :
    code v.toFloat = FloatFormat.binary64.encode v :=
  code_ofBits_of_ne_nan (FloatFormat.binary64.encode_lt (by decide) v)
    (FloatFormat.binary64.round_ne_nan hv)

/-- A float made of a number stands for the number rounded. -/
theorem ofFloat_toFloat (hv : v ≠ .nan) :
    FloatValue.ofFloat v.toFloat = FloatFormat.binary64.round v := by
  show FloatFormat.binary64.decode (code v.toFloat) = _
  rw [code_toFloat_of_ne_nan hv]
  rfl

theorem isNaN_toFloat (hv : v ≠ .nan) : v.toFloat.isNaN = false := by
  refine Bool.eq_false_iff.mpr fun hnan => ?_
  rw [← ofFloat_eq_nan_iff, ofFloat_toFloat hv] at hnan
  exact FloatFormat.binary64.round_ne_nan hv hnan

/-- A float is made of a number if and only if that is not NaN. -/
theorem isNaN_toFloat_eq_false_iff : v.toFloat.isNaN = false ↔ v ≠ .nan := by
  refine ⟨?_, isNaN_toFloat⟩
  rintro h rfl
  exact absurd h (by decide)

/-- A float is the number that it stands for. -/
theorem toFloat_ofFloat {x : Float} (h : x.isNaN = false) : (FloatValue.ofFloat x).toFloat = x := by
  have hv := ofFloat_ne_nan h
  apply code_inj
  rw [code_toFloat_of_ne_nan hv]
  exact FloatFormat.binary64.encode_decode_of_ne_nan x.toBits.toBitVec.isLt hv

end Floats

end FusedGemm
