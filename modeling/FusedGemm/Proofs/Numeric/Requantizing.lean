import FusedGemm.Proofs.Numeric.Widening

/-!
# Storing what has been read

An element that is read and stored again in the same type has the same code as before, unless it
holds NaN (`ElementType.encode_decode`).  Reading is exact, as every type is within the compute
format (`ElementType.ofFloat_decodePart`), and so are the two detours on the way back: the 16-bit
format with five exponent bits is within the 32-bit one, and what the other one holds has a 64-bit
code whose lower half is zero (`ElementType.approach_same`).
-/

namespace FusedGemm

/-- Neither part of the number is NaN. -/
def ComplexFloat.NoNaN (z : ComplexFloat) : Prop := z.re.isNaN = false ∧ z.im.isNaN = false

instance (z : ComplexFloat) : Decidable z.NoNaN := inferInstanceAs (Decidable (_ ∧ _))

namespace ElementType

open FloatFormat FloatValue

variable {t : ElementType} {format : FloatFormat} {n : Nat}

/-! ### Reading -/

/-- Each float type is within the compute format. -/
theorem within_binary64 (ht : t.encoding = .float format) : format.Within .binary64 := by
  cases t <;> cases ht <;>
    exact ⟨by decide, by decide, by decide +kernel, fun _ => by decide +kernel⟩

theorem decodePart_eq_ofInt (ht : t.encoding = .integer) (n : Nat) :
    t.decodePart n = ofInt (Int.bmod n (2 ^ t.partBits)) := by
  unfold decodePart
  rw [ht]

/-- The integer that a code stands for is in the range of its type. -/
theorem bmod_bounds (ht : t.encoding = .integer) (n : Nat) :
    -2 ^ (t.partBits - 1) ≤ Int.bmod n (2 ^ t.partBits) ∧
      Int.bmod n (2 ^ t.partBits) ≤ 2 ^ (t.partBits - 1) - 1 := by
  cases t <;> cases ht
  · exact ⟨Int.le_bmod (m := 256) (by decide), Int.bmod_le (m := 256) (by decide)⟩
  · exact ⟨Int.le_bmod (m := 4294967296) (by decide), Int.bmod_le (m := 4294967296) (by decide)⟩

/-- An integer of 53 bits is a number of the compute format. -/
theorem round_ofInt {i : Int} (hi : i.natAbs < 2 ^ 53) :
    (FloatFormat.binary64.round (ofInt i)).Same (ofInt i) := by
  have hlargest : dyadic (2 ^ 53) 0 ≤ FloatFormat.binary64.largest.toRat := by decide +kernel
  have hmax := ((dyadic_le_iff 0).mpr hi.le).trans hlargest
  exact FloatFormat.binary64.round_same hi (by decide) hmax _

/-- **Reading a part of an element is exact.** -/
theorem ofFloat_decodePart (h : t.decodePart n ≠ .nan) :
    (ofFloat (t.decodePart n).toFloat).Same (t.decodePart n) := by
  rw [ofFloat_toFloat h]
  cases ht : t.encoding with
  | float format =>
    rw [decodePart_of_float ht] at h ⊢
    exact (within_binary64 ht).round_same h
  | integer =>
    have hbits : (2 : Int) ^ (t.partBits - 1) ≤ 2 ^ 31 := by cases t <;> cases ht <;> decide
    obtain ⟨hlow, hhigh⟩ := bmod_bounds ht n
    rw [decodePart_eq_ofInt ht]
    exact round_ofInt (by omega)

/-! ### Storing -/

/-- The codes of what the 16-bit type with eight exponent bits holds end in zeros. -/
theorem two_pow_dvd_encode_brain16 (h : brain16.decode n ≠ .nan) :
    2 ^ 32 ∣ FloatFormat.binary64.encode (brain16.decode n) := by
  rcases hvalue : brain16.decode n with _ | negative | ⟨negative, s, e⟩
  · exact absurd hvalue h
  · cases negative <;> decide
  · obtain ⟨hs, he, hmax⟩ := parts_of_decode_eq hvalue
    have hmin : (-133 : Int) ≤ e := he
    have hle := FloatFormat.binary64.roundMagnitude_le_maxCode
      (hmax.trans (within_binary64 (t := .bf16) rfl).largest_le)
    have hdvd : 2 ^ 45 ∣ FloatFormat.binary64.roundMagnitude s e :=
      FloatFormat.binary64.two_pow_dvd_roundMagnitude hs
        (fun _ => show (-1022 : Int) ≤ s.log2 + e by omega) (by decide)
    have hencode : FloatFormat.binary64.encode (.finite negative s e) =
        FloatFormat.binary64.withSign negative (FloatFormat.binary64.roundMagnitude s e) := by
      show FloatFormat.binary64.withSign negative (FloatFormat.binary64.clampMagnitude _) = _
      rw [clampMagnitude, if_pos hle]
    have hbits : 2 ^ 32 ∣ FloatFormat.binary64.roundMagnitude s e :=
      (Nat.pow_dvd_pow 2 (by decide)).trans hdvd
    rw [hencode]
    cases negative with
    | false => exact hbits
    | true => exact Nat.dvd_add (Nat.pow_dvd_pow 2 (by decide)) hbits

/-- **What a type holds is approached without rounding.** -/
theorem approach_decodePart (h : t.decodePart n ≠ .nan) :
    (t.approach (t.decodePart n).toFloat).Same (t.decodePart n) := by
  have hsame := ofFloat_decodePart h
  cases t
  case f16 =>
    show (FloatFormat.binary32.round (ofFloat (ElementType.f16.decodePart n).toFloat)).Same _
    unfold FloatFormat.round
    rw [FloatFormat.binary32.encode_congr_same hsame]
    exact binary16_within_binary32.round_same h
  case bf16 =>
    have hnan := isNaN_toFloat h
    have hcode := code_toFloat_of_ne_nan h
    have hdvd : 2 ^ 32 ∣ code (ElementType.bf16.decodePart n).toFloat := by
      rw [hcode]
      exact two_pow_dvd_encode_brain16 h
    have happroach : ElementType.bf16.approach (ElementType.bf16.decodePart n).toFloat =
        FloatFormat.binary64.decode (code (ElementType.bf16.decodePart n).toFloat / 2 ^ 32 *
          2 ^ 32) := by
      unfold approach
      dsimp only
      rw [hnan, if_neg Bool.false_ne_true]
      rfl
    rw [happroach, Nat.div_mul_cancel hdvd]
    exact hsame
  all_goals exact hsame

/-- An integer of the range of its type is stored as it is. -/
theorem toIntWithin_ofInt {i least greatest : Int} (hlow : least ≤ i) (hhigh : i ≤ greatest) :
    (ofInt i).toIntWithin .toEven least greatest = i := by
  have hscale : Tie.toEven.scale i.natAbs 0 = i.natAbs := by
    unfold Tie.scale
    rw [if_pos le_rfl]
    exact Nat.mul_one _
  unfold ofInt toIntWithin
  dsimp only
  rw [hscale]
  split_ifs with hneg
  · have := of_decide_eq_true hneg
    omega
  · have := of_decide_eq_false (Bool.eq_false_iff.mpr hneg)
    omega

/-- **A part of an element that is read and stored again has the same code.** -/
theorem encodePart_decodePart (hn : n < 2 ^ t.partBits) (h : t.decodePart n ≠ .nan) :
    t.encodePart (t.decodePart n).toFloat = n := by
  have hsame := approach_decodePart h
  cases ht : t.encoding with
  | float format =>
    have hweight : 2 ^ t.partBits = 2 * format.signWeight := by cases t <;> cases ht <;> decide
    rw [encodePart_of_float ht, format.encode_congr_same hsame, decodePart_of_float ht]
    rw [decodePart_of_float ht] at h
    exact format.encode_decode_of_ne_nan (hweight ▸ hn) h
  | integer =>
    obtain ⟨hlow, hhigh⟩ := bmod_bounds ht n
    have hcast : ((2 ^ t.partBits : Nat) : Int) = 2 ^ t.partBits := Nat.cast_pow 2 _
    unfold encodePart
    rw [ht]
    dsimp only
    rw [toIntWithin_congr _ _ _ hsame, decodePart_eq_ofInt ht, toIntWithin_ofInt hlow hhigh, ← hcast,
      Int.bmod_emod, Int.emod_eq_of_lt (Int.natCast_nonneg n) (Int.ofNat_lt.mpr hn),
      Int.toNat_natCast]

/-- **An element that is read and stored again has the same code**, if no part of it is NaN. -/
theorem encode_decode (t : ElementType) {c : Code t} (h : (t.decode c).NoNaN) :
    t.encode (t.decode c) = c := by
  have hlt := c.isLt
  unfold encode
  unfold decode at h ⊢
  cases hcomplex : t.isComplex with
  | false =>
    have hbits : t.bits = t.partBits := by
      unfold partBits
      rw [hcomplex, if_neg Bool.false_ne_true]
    rw [hcomplex, if_neg Bool.false_ne_true] at h
    rw [if_neg Bool.false_ne_true, if_neg Bool.false_ne_true]
    show BitVec.ofNat _ (t.encodePart (t.decodePart c.toNat).toFloat) = c
    rw [encodePart_decodePart (hbits ▸ hlt) (isNaN_toFloat_eq_false_iff.mp h.1), BitVec.ofNat_toNat,
      BitVec.setWidth_eq]
  | true =>
    have hbits : 2 ^ t.bits = 2 ^ t.partBits * 2 ^ t.partBits := by cases t <;> cases hcomplex; rfl
    rw [hbits] at hlt
    rw [hcomplex, if_pos rfl] at h
    rw [if_pos rfl, if_pos rfl]
    dsimp only
    rw [encodePart_decodePart (Nat.mod_lt _ (Nat.two_pow_pos _))
        (isNaN_toFloat_eq_false_iff.mp h.1),
      encodePart_decodePart (Nat.div_lt_of_lt_mul hlt) (isNaN_toFloat_eq_false_iff.mp h.2),
      Nat.mod_add_div, BitVec.ofNat_toNat, BitVec.setWidth_eq]

/-! ### Parts -/

/-- The code of a part has no more bits than there are for it, also with a sign. -/
theorem encodePart_lt_signed (t : ElementType) (x : Float) : t.encodePart x < 2 ^ t.partBits := by
  cases ht : t.encoding with
  | float format =>
    have hweight : 2 ^ t.partBits = 2 * format.signWeight ∧ format.nanCode < format.signWeight := by
      cases t <;> cases ht <;> decide
    rw [encodePart_of_float ht, hweight.1]
    exact format.encode_lt hweight.2 _
  | integer =>
    have hpos : (0 : Int) < 2 ^ t.partBits := Int.pow_pos (by decide)
    have hcast : ((2 ^ t.partBits : Nat) : Int) = 2 ^ t.partBits := Nat.cast_pow 2 _
    unfold encodePart
    rw [ht]
    dsimp only
    rw [Int.toNat_lt (Int.emod_nonneg _ hpos.ne'), hcast]
    exact Int.emod_lt_of_pos _ hpos

variable (z : ComplexFloat)

/-- A real number is quantized as its part is. -/
theorem quantize_of_real (h : t.isComplex = false) :
    t.quantize z = .ofReal (t.quantizePart z.re) := by
  have hbits : t.bits = t.partBits := by
    unfold partBits
    rw [h, if_neg Bool.false_ne_true]
  have hlt := t.encodePart_lt_signed z.re
  unfold quantize decode encode
  rw [h, if_neg Bool.false_ne_true, if_neg Bool.false_ne_true, BitVec.toNat_ofNat, hbits,
    Nat.mod_eq_of_lt hlt]
  rfl

/-- A complex number is quantized part by part. -/
theorem quantize_of_complex (h : t.isComplex = true) :
    t.quantize z = ⟨t.quantizePart z.re, t.quantizePart z.im⟩ := by
  have hbits : 2 ^ t.bits = 2 ^ t.partBits * 2 ^ t.partBits := by cases t <;> cases h; rfl
  have hre := t.encodePart_lt_signed z.re
  have him := t.encodePart_lt_signed z.im
  have hlt : t.encodePart z.re + 2 ^ t.partBits * t.encodePart z.im < 2 ^ t.bits := by
    have hmul := Nat.mul_le_mul_left (2 ^ t.partBits) (Nat.succ_le_of_lt him)
    rw [Nat.mul_succ] at hmul
    omega
  unfold quantize decode encode
  rw [h, if_pos rfl, if_pos rfl, BitVec.toNat_ofNat, Nat.mod_eq_of_lt hlt, Nat.add_mul_mod_self_left,
    Nat.mod_eq_of_lt hre, Nat.add_mul_div_left _ _ (Nat.two_pow_pos _), Nat.div_eq_of_lt hre,
    Nat.zero_add]
  rfl

end ElementType

end FusedGemm
