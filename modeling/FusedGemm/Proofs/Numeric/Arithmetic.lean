import FusedGemm.Proofs.Numeric.Unpacking

/-!
# Sums and products without signs

A float without a sign is finite or infinite (`Unsigned.bounded_or_eq`), and a finite one is a dyadic
number (`Parts`).  Sums and products of finite floats are the exact ones rounded once
(`Parts.code_add`, `Parts.code_mul`).  As rounding keeps the order, so does addition
(`code_add_le`), and neither summand is above the sum.
-/

namespace FusedGemm

open Float.Model Float.Model.UnpackedFloat

/-! ### Codes and floats -/

/-- An unpacked float is packed again. -/
theorem toNat_pack_unpacked {n : Nat} (h : n ≤ FloatFormat.binary64.infinityCode) :
    (UnpackedFloat.pack Format.binary64 (FloatFormat.binary64.decode n).unpacked).toNat = n := by
  have hcode : FloatFormat.binary64.infinityCode = 2047 * 2 ^ 52 := rfl
  have hmax : FloatFormat.binary64.maxCode = 2047 * 2 ^ 52 - 1 := rfl
  rcases Nat.lt_or_ge FloatFormat.binary64.maxCode n with hlarge | hsmall
  · obtain rfl : n = 2047 * 2 ^ 52 := by omega
    rfl
  obtain ⟨s, e, hdecode, hlt, he, hnormal, hn⟩ := exists_of_le_maxCode hsmall
  rw [hdecode]
  rcases Nat.eq_zero_or_pos s with rfl | hpos
  · obtain rfl : e = -1074 := hnormal.resolve_left (by omega)
    rw [hn]
    rfl
  · rw [FloatValue.unpacked_of_pos hpos, toNat_pack hpos hlt he hnormal, ← hn]
    exact if_pos hsmall

/-- The float with a code. -/
theorem code_ofBits {n : Nat} (h : n ≤ FloatFormat.binary64.infinityCode) :
    code (Float.ofBits (UInt64.ofNat n)) = n := by
  have hcode : FloatFormat.binary64.infinityCode = 2047 * 2 ^ 52 := rfl
  have hbits : (UInt64.ofNat n).toBitVec.toNat = n := by
    show n % 2 ^ 64 = n
    omega
  show (UnpackedFloat.pack Format.binary64
    (UnpackedFloat.unpack Format.binary64 (UInt64.ofNat n).toBitVec)).toNat = n
  rw [unpack_of_le (by rwa [hbits]), hbits]
  exact toNat_pack_unpacked h

/-- **Narrowing to a float is rounding.** -/
theorem code_toFloat {v : FloatValue} (h : v.Below v) :
    code v.toFloat = FloatFormat.binary64.encode v :=
  code_ofBits (FloatFormat.binary64.encode_le h)

section Unsigned
variable {x y : Float}

theorem Unsigned.unpack_eq (h : Unsigned x) :
    x.toModel.unpack = (FloatValue.ofFloat x).unpacked :=
  unpack_of_le h

theorem Unsigned.below (hy : Unsigned y) (hle : code x ≤ code y) :
    (FloatValue.ofFloat x).Below (FloatValue.ofFloat y) :=
  FloatFormat.binary64.decode_mono hle hy

theorem Unsigned.encode_ofFloat (h : Unsigned x) :
    FloatFormat.binary64.encode (FloatValue.ofFloat x) = code x :=
  FloatFormat.binary64.encode_decode h

theorem Unsigned.isNaN_eq (h : Unsigned x) : x.isNaN = false := by
  show x.toModel.unpack.isNaN = false
  rw [h.unpack_eq]
  show (FloatFormat.binary64.decode (code x)).unpacked.isNaN = false
  rcases Nat.lt_or_ge FloatFormat.binary64.maxCode (code x) with hlarge | hsmall
  · rw [FloatFormat.decode_of_lt _ hlarge h]
    rfl
  · obtain ⟨s, e, hdecode, -⟩ := exists_of_le_maxCode hsmall
    rw [hdecode]
    rcases Nat.eq_zero_or_pos s with rfl | hpos
    · rfl
    · rw [FloatValue.unpacked_of_pos hpos]
      rfl

end Unsigned

/-! ### Finite floats -/

/-- The float is zero or positive, has no sign, and is finite. -/
def Bounded (x : Float) : Prop := code x ≤ FloatFormat.binary64.maxCode

instance (x : Float) : Decidable (Bounded x) := inferInstanceAs (Decidable (_ ≤ _))

theorem Bounded.unsigned {x : Float} (h : Bounded x) : Unsigned x :=
  Nat.le_trans h FloatFormat.binary64.maxCode_le_overflowCode

/-- The significand and the exponent of a finite float without a sign. -/
structure Parts (x : Float) (s : Nat) (e : Int) : Prop where
  unsigned : Unsigned x
  value_eq : FloatValue.ofFloat x = .finite false s e
  lt : s < 2 ^ 53
  le : -1074 ≤ e
  normal : 2 ^ 52 ≤ s ∨ e = -1074
  code_eq : code x = (e + 1074).toNat * 2 ^ 52 + s

theorem Bounded.exists_parts {x : Float} (h : Bounded x) : ∃ s e, Parts x s e := by
  obtain ⟨s, e, hdecode, hlt, he, hnormal, hcode⟩ := exists_of_le_maxCode h
  exact ⟨s, e, h.unsigned, hdecode, hlt, he, hnormal, hcode⟩

/-- The infinite float without a sign. -/
def infinity : Float := Float.ofBits 0x7ff0000000000000

/-- A float without a sign is finite or infinity. -/
theorem Unsigned.bounded_or_eq {x : Float} (h : Unsigned x) : Bounded x ∨ x = infinity := by
  rcases Nat.lt_or_ge FloatFormat.binary64.maxCode (code x) with hlarge | hsmall
  · have hcode : FloatFormat.binary64.infinityCode = 2047 * 2 ^ 52 := rfl
    have hmax : FloatFormat.binary64.maxCode = 2047 * 2 ^ 52 - 1 := rfl
    have hinfinity : code infinity = 2047 * 2 ^ 52 := by decide
    unfold Unsigned at h
    exact Or.inr (code_inj (by omega))
  · exact Or.inl hsmall

/-- An unsigned float is unpacked to infinity, zero or a positive number. -/
theorem Unsigned.unpack_cases {x : Float} (h : Unsigned x) :
    x.toModel.unpack = .infinity .positive ∨ x.toModel.unpack = .zero .positive ∨
      ∃ s e hs, x.toModel.unpack = .finite .positive s e hs := by
  rw [h.unpack_eq]
  cases h.bounded_or_eq with
  | inr hinfinity =>
    rw [hinfinity]
    exact Or.inl rfl
  | inl hbounded =>
    obtain ⟨s, e, hparts⟩ := hbounded.exists_parts
    rw [hparts.value_eq]
    rcases Nat.eq_zero_or_pos s with rfl | hpos
    · exact Or.inr (Or.inl rfl)
    · exact Or.inr (Or.inr ⟨s, e, hpos, FloatValue.unpacked_of_pos hpos e⟩)

section Operations
variable {x y : Float} {s s' : Nat} {e e' : Int}

theorem Parts.unpack_eq (h : Parts x s e) :
    x.toModel.unpack = (FloatValue.finite false s e).unpacked := by
  rw [h.unsigned.unpack_eq, h.value_eq]

theorem Parts.encode_eq (h : Parts x s e) :
    FloatFormat.binary64.encode (.finite false s e) = code x := by
  rw [← h.value_eq, h.unsigned.encode_ofFloat]

theorem Parts.toNat_pack (h : Parts x s e) :
    (UnpackedFloat.pack Format.binary64 (FloatValue.finite false s e).unpacked).toNat =
      FloatFormat.binary64.encode (.finite false s e) := by
  rw [h.encode_eq, ← h.value_eq]
  exact toNat_pack_unpacked h.unsigned

/-- Core adds floats as they are unpacked, and packs the sum. -/
theorem code_add_unpacked (x y : Float) :
    code (x + y) = (UnpackedFloat.pack Format.binary64
      (UnpackedFloat.add Format.binary64 x.toModel.unpack y.toModel.unpack)).toNat := rfl

/-- So it multiplies them. -/
theorem code_mul_unpacked (x y : Float) :
    code (x * y) = (UnpackedFloat.pack Format.binary64
      (UnpackedFloat.mul Format.binary64 x.toModel.unpack y.toModel.unpack)).toNat := rfl

/-- Core adds two positive numbers at the smaller of their exponents. -/
theorem toNat_pack_add (hs : 0 < s) (hs' : 0 < s') :
    (UnpackedFloat.pack Format.binary64 (UnpackedFloat.add Format.binary64
      (.finite .positive s e hs) (.finite .positive s' e' hs'))).toNat =
      FloatFormat.binary64.encode (.finite false (s * 2 ^ (e - min e e').toNat +
        s' * 2 ^ (e' - min e e').toNat) (min e e')) := by
  have hsum : 0 < s <<< (e - min e e').toNat + s' <<< (e' - min e e').toNat := by
    rw [Nat.shiftLeft_eq]
    exact Nat.add_pos_left (Nat.mul_pos hs (Nat.two_pow_pos _)) _
  rw [← Nat.shiftLeft_eq, ← Nat.shiftLeft_eq, ← toNat_pack_round hsum]
  show (UnpackedFloat.pack Format.binary64 (UnpackedFloat.normalize Format.binary64
    (((s <<< (e - min e e').toNat : Nat) : Int) + ((s' <<< (e' - min e e').toNat : Nat) : Int))
    (min e e') .positive)).toNat = _
  rw [← Nat.cast_add]
  unfold UnpackedFloat.normalize
  rw [show compare ((s <<< (e - min e e').toNat + s' <<< (e' - min e e').toNat : Nat) : Int) 0 =
    .gt from Int.compare_eq_gt.mpr (by omega)]
  rfl

/-- **A sum is rounded from the exact sum.** -/
theorem Parts.code_add (hx : Parts x s e) (hy : Parts y s' e') :
    ∃ s'' e'', dyadic s'' e'' = dyadic s e + dyadic s' e' ∧
      code (x + y) = FloatFormat.binary64.encode (.finite false s'' e'') := by
  rw [code_add_unpacked, hx.unpack_eq, hy.unpack_eq]
  rcases Nat.eq_zero_or_pos s with rfl | hpos
  · refine ⟨s', e', by rw [zero_dyadic, zero_add], ?_⟩
    rw [← hy.toNat_pack]
    rcases Nat.eq_zero_or_pos s' with rfl | hpos'
    · rfl
    · rw [FloatValue.unpacked_of_pos hpos']
      rfl
  rcases Nat.eq_zero_or_pos s' with rfl | hpos'
  · refine ⟨s, e, by rw [zero_dyadic, add_zero], ?_⟩
    rw [← hx.toNat_pack, FloatValue.unpacked_of_pos hpos]
    rfl
  · rw [FloatValue.unpacked_of_pos hpos, FloatValue.unpacked_of_pos hpos']
    refine ⟨_, _, ?_, toNat_pack_add hpos hpos'⟩
    rw [dyadic_add, dyadic_shift_to (min_le_left e e'), dyadic_shift_to (min_le_right e e')]

/-- **A product is rounded from the exact product.** -/
theorem Parts.code_mul (hx : Parts x s e) (hy : Parts y s' e') :
    code (x * y) = FloatFormat.binary64.encode (.finite false (s * s') (e + e')) := by
  rw [code_mul_unpacked, hx.unpack_eq, hy.unpack_eq]
  rcases Nat.eq_zero_or_pos s with rfl | hpos
  · rw [Nat.zero_mul]
    rcases Nat.eq_zero_or_pos s' with rfl | hpos'
    · rfl
    · rw [FloatValue.unpacked_of_pos hpos']
      rfl
  rcases Nat.eq_zero_or_pos s' with rfl | hpos'
  · rw [Nat.mul_zero, FloatValue.unpacked_of_pos hpos]
    rfl
  · rw [FloatValue.unpacked_of_pos hpos, FloatValue.unpacked_of_pos hpos']
    refine toNat_pack_roundWithAccuracy (Nat.mul_pos hpos hpos') ?_
    -- the product has 53 bits if one of the factors has, and else both have the least exponent
    have hbits : ∀ {a b : Nat}, 2 ^ 52 ≤ a → 0 < b → 52 ≤ (a * b).log2 := fun ha hb =>
      (Nat.le_log2 (Nat.mul_ne_zero (by omega) hb.ne')).mpr
        (ha.trans (Nat.le_mul_of_pos_right _ hb))
    rcases hx.normal with hs | he
    · have := hbits hs hpos'
      omega
    rcases hy.normal with hs' | he'
    · have := hbits hs' hpos
      rw [Nat.mul_comm] at this
      omega
    · omega

end Operations

/-! ### Constants -/

theorem parts_zero : Parts 0 0 (-1074) := by
  refine ⟨?_, ?_, ?_, ?_, ?_, ?_⟩ <;> decide

theorem parts_one : Parts 1 (2 ^ 52) (-52) := by
  refine ⟨?_, ?_, ?_, ?_, ?_, ?_⟩ <;> decide

theorem dyadic_one_parts : dyadic (2 ^ 52) (-52) = 1 := by
  have hshift := dyadic_shift 1 52 0
  rw [Nat.one_mul] at hshift
  refine hshift.trans ?_
  rw [dyadic, Nat.cast_one, zpow_zero, mul_one]

theorem Parts.one_le_dyadic {x : Float} {s : Nat} {e : Int} (h : Parts x s e)
    (hone : code 1 ≤ code x) : 1 ≤ dyadic s e := by
  have hbelow := h.unsigned.below hone
  rw [parts_one.value_eq, h.value_eq] at hbelow
  have hle : dyadic (2 ^ 52) (-52) ≤ dyadic s e := hbelow
  rwa [dyadic_one_parts] at hle

theorem unpack_infinity : infinity.toModel.unpack = .infinity .positive := rfl

theorem unsigned_infinity : Unsigned infinity := by decide

/-! ### Sums -/

section Sums
variable {x y x' y' : Float}

theorem infinity_add (h : Unsigned y) : infinity + y = infinity := by
  have hadd : infinity + y = Float.ofModel (Float.Model.pack
      (UnpackedFloat.add Format.binary64 infinity.toModel.unpack y.toModel.unpack)) := rfl
  rw [hadd, unpack_infinity]
  rcases h.unpack_cases with hy | hy | ⟨s, e, hs, hy⟩ <;> rw [hy] <;> rfl

theorem add_infinity (h : Unsigned x) : x + infinity = infinity := by
  have hadd : x + infinity = Float.ofModel (Float.Model.pack
      (UnpackedFloat.add Format.binary64 x.toModel.unpack infinity.toModel.unpack)) := rfl
  rw [hadd, unpack_infinity]
  rcases h.unpack_cases with hx | hx | ⟨s, e, hs, hx⟩ <;> rw [hx] <;> rfl

theorem Unsigned.add (hx : Unsigned x) (hy : Unsigned y) : Unsigned (x + y) := by
  rcases hx.bounded_or_eq with hbounded | rfl
  · rcases hy.bounded_or_eq with hbounded' | rfl
    · obtain ⟨s, e, hparts⟩ := hbounded.exists_parts
      obtain ⟨s', e', hparts'⟩ := hbounded'.exists_parts
      obtain ⟨s'', e'', -, hcode⟩ := hparts.code_add hparts'
      unfold Unsigned
      rw [hcode]
      exact FloatFormat.binary64.clampMagnitude_le _
    · rw [add_infinity hx]
      exact unsigned_infinity
  · rw [infinity_add hy]
    exact unsigned_infinity

/-- **Sums are in the order of their summands.** -/
theorem code_add_le (hx' : Unsigned x') (hy' : Unsigned y') (hx : code x ≤ code x')
    (hy : code y ≤ code y') : code (x + y) ≤ code (x' + y') := by
  have hleft : Unsigned (x + y) := Unsigned.add (hx.trans hx') (hy.trans hy')
  rcases hx'.bounded_or_eq with hbx | rfl
  · rcases hy'.bounded_or_eq with hby | rfl
    · obtain ⟨s', e', hparts'⟩ := hbx.exists_parts
      obtain ⟨t', f', hqarts'⟩ := hby.exists_parts
      obtain ⟨s, e, hparts⟩ := Bounded.exists_parts (hx.trans hbx)
      obtain ⟨t, f, hqarts⟩ := Bounded.exists_parts (hy.trans hby)
      obtain ⟨u, g, hsum, hcode⟩ := hparts.code_add hqarts
      obtain ⟨u', g', hsum', hcode'⟩ := hparts'.code_add hqarts'
      have hbelow := hx'.below hx
      have hbelow' := hy'.below hy
      rw [hparts.value_eq, hparts'.value_eq] at hbelow
      rw [hqarts.value_eq, hqarts'.value_eq] at hbelow'
      rw [hcode, hcode']
      refine FloatFormat.binary64.encode_mono (show dyadic u g ≤ dyadic u' g' from ?_)
      rw [hsum, hsum']
      exact add_le_add hbelow hbelow'
    · rw [add_infinity hx']
      exact hleft
  · rw [infinity_add hy']
    exact hleft

theorem Unsigned.add_zero_eq (h : Unsigned x) : x + 0 = x := by
  rcases h.bounded_or_eq with hbounded | rfl
  · obtain ⟨s, e, hx⟩ := hbounded.exists_parts
    obtain ⟨s', e', hsum, hcode⟩ := hx.code_add parts_zero
    rw [zero_dyadic, add_zero] at hsum
    exact code_inj (hcode.trans ((FloatFormat.binary64.encode_congr hsum).trans hx.encode_eq))
  · exact infinity_add parts_zero.unsigned

theorem Unsigned.zero_add_eq (h : Unsigned x) : 0 + x = x := by
  rcases h.bounded_or_eq with hbounded | rfl
  · obtain ⟨s, e, hx⟩ := hbounded.exists_parts
    obtain ⟨s', e', hsum, hcode⟩ := parts_zero.code_add hx
    rw [zero_dyadic, zero_add] at hsum
    exact code_inj (hcode.trans ((FloatFormat.binary64.encode_congr hsum).trans hx.encode_eq))
  · exact add_infinity parts_zero.unsigned

/-- A summand is not larger than the sum. -/
theorem Unsigned.le_add_right (hx : Unsigned x) (hy : Unsigned y) : code x ≤ code (x + y) := by
  have hle : code (x + 0) ≤ code (x + y) := code_add_le hx hy le_rfl (Nat.zero_le _)
  rwa [hx.add_zero_eq] at hle

theorem Unsigned.le_add_left (hx : Unsigned x) (hy : Unsigned y) : code x ≤ code (y + x) := by
  have hle : code (0 + x) ≤ code (y + x) := code_add_le hy hx (Nat.zero_le _) le_rfl
  rwa [hx.zero_add_eq] at hle

/-- An unsigned float is packed again. -/
theorem Unsigned.toNat_pack_unpack (h : Unsigned x) :
    (UnpackedFloat.pack Format.binary64 x.toModel.unpack).toNat = code x := by
  rw [h.unpack_eq]
  exact toNat_pack_unpacked h

/-- Minus zero is neutral. -/
theorem Unsigned.neg_zero_add (h : Unsigned x) : -0.0 + x = x := by
  have hzero : (-0.0 : Float).toModel.unpack = .zero .negative := rfl
  refine code_inj (Eq.trans ?_ h.toNat_pack_unpack)
  rw [code_add_unpacked, hzero]
  rcases h.unpack_cases with hx | hx | ⟨s, e, hs, hx⟩ <;> rw [hx] <;> rfl

/-- Zero can be subtracted. -/
theorem Unsigned.sub_zero_eq (h : Unsigned x) : x - 0 = x := by
  have hzero : (0 : Float).toModel.unpack = .zero .positive := rfl
  have hsub : code (x - 0) = (UnpackedFloat.pack Format.binary64
      (UnpackedFloat.sub Format.binary64 x.toModel.unpack (0 : Float).toModel.unpack)).toNat := rfl
  refine code_inj (Eq.trans ?_ h.toNat_pack_unpack)
  rw [hsub, hzero]
  rcases h.unpack_cases with hx | hx | ⟨s, e, hs, hx⟩ <;> rw [hx] <;> rfl

end Sums

/-! ### Products -/

section Products
variable {x : Float}

/-- One is neutral. -/
theorem Unsigned.one_mul_eq (h : Unsigned x) : 1 * x = x := by
  rcases h.bounded_or_eq with hbounded | rfl
  · obtain ⟨s, e, hx⟩ := hbounded.exists_parts
    refine code_inj ((parts_one.code_mul hx).trans (Eq.trans ?_ hx.encode_eq))
    refine FloatFormat.binary64.encode_congr ?_
    rw [dyadic_mul, dyadic_one_parts, one_mul]
  · rfl

theorem Unsigned.mul_one_eq (h : Unsigned x) : x * 1 = x := by
  rcases h.bounded_or_eq with hbounded | rfl
  · obtain ⟨s, e, hx⟩ := hbounded.exists_parts
    refine code_inj ((hx.code_mul parts_one).trans (Eq.trans ?_ hx.encode_eq))
    refine FloatFormat.binary64.encode_congr ?_
    rw [dyadic_mul, dyadic_one_parts, mul_one]
  · rfl

/-- A finite number times zero is zero. -/
theorem Bounded.zero_mul_eq (h : Bounded x) : 0 * x = 0 := by
  obtain ⟨s, e, hx⟩ := h.exists_parts
  refine code_inj ((parts_zero.code_mul hx).trans ?_)
  rw [Nat.zero_mul]
  rfl

theorem Bounded.mul_zero_eq (h : Bounded x) : x * 0 = 0 := by
  obtain ⟨s, e, hx⟩ := h.exists_parts
  refine code_inj ((hx.code_mul parts_zero).trans ?_)
  rw [Nat.mul_zero]
  rfl

/-- The square of a number from one on is an unsigned one from one on. -/
theorem one_le_code_mul_self (h : Unsigned x) (hone : code 1 ≤ code x) :
    Unsigned (x * x) ∧ code 1 ≤ code (x * x) := by
  rcases h.bounded_or_eq with hbounded | rfl
  · obtain ⟨s, e, hx⟩ := hbounded.exists_parts
    unfold Unsigned
    rw [hx.code_mul hx]
    refine ⟨FloatFormat.binary64.clampMagnitude_le _, ?_⟩
    rw [← parts_one.encode_eq]
    refine FloatFormat.binary64.encode_mono (show dyadic _ _ ≤ dyadic _ _ from ?_)
    have hle := hx.one_le_dyadic hone
    rw [dyadic_mul, dyadic_one_parts]
    exact one_le_mul_of_one_le_of_one_le hle hle
  · decide

end Products

end FusedGemm
