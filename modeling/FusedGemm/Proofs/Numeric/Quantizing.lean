import FusedGemm.Element
import FusedGemm.Proofs.Numeric.Arithmetic

/-!
# Quantizing without signs

Storing a number without a sign in an element and reading it back keeps the order
(`ElementType.code_quantizePart_mono`), for floats because decoding and encoding do, and for
integers because they clamp (`ElementType.clampNatural`).  Zero, one and the greatest number of a
type are kept as they are.
-/

namespace FusedGemm

namespace ElementType

/-- The number that one part of an element holds after a float has been stored in it. -/
def quantizePart (t : ElementType) (x : Float) : Float := (t.decodePart (t.encodePart x)).toFloat

variable {x y : Float}

/-! ### The order -/

theorem approach_bf16 (h : Unsigned x) :
    approach .bf16 x = FloatFormat.binary64.decode (code x / 2 ^ 32 * 2 ^ 32) := by
  unfold approach
  dsimp only
  rw [h.isNaN_eq, if_neg Bool.false_ne_true]
  rfl

/-- The number that rounding starts from is in the order of the floats. -/
theorem approach_below (t : ElementType) (hy : Unsigned y) (h : code x ≤ code y) :
    (t.approach x).Below (t.approach y) := by
  have hbelow := hy.below h
  cases t
  case f16 =>
    exact FloatFormat.binary32.decode_mono (FloatFormat.binary32.encode_mono hbelow)
      (FloatFormat.binary32.encode_le (hy.below le_rfl))
  case bf16 =>
    rw [approach_bf16 (Nat.le_trans h hy), approach_bf16 hy]
    exact FloatFormat.binary64.decode_mono (Nat.mul_le_mul_right _ (Nat.div_le_div_right h))
      ((Nat.div_mul_le_self _ _).trans hy)
  all_goals exact hbelow

/-- What an integer type holds of a number without a sign. -/
def clampNatural (t : ElementType) : FloatValue → Nat
  | .finite _ s e => min (2 ^ (t.partBits - 1) - 1) (Tie.toEven.scale s e)
  | _ => 2 ^ (t.partBits - 1) - 1

theorem clampNatural_mono (t : ElementType) {v w : FloatValue} (h : v.Below w) :
    t.clampNatural v ≤ t.clampNatural w := by
  match v, w, h with
  | .finite false s e, .finite false s' e', h =>
    exact min_le_min_left _ (Tie.toEven.scale_mono h)
  | .finite false s e, .infinite false, _ => exact min_le_left _ _
  | .infinite false, .infinite false, _ => exact le_rfl

theorem clampNatural_le (t : ElementType) (v : FloatValue) :
    t.clampNatural v ≤ 2 ^ (t.partBits - 1) - 1 := by
  unfold clampNatural
  split
  · exact min_le_left _ _
  · exact le_rfl

theorem toIntWithin_eq (t : ElementType) {v : FloatValue} (h : v.Below v) :
    v.toIntWithin .toEven (-2 ^ (t.partBits - 1)) (2 ^ (t.partBits - 1) - 1) = t.clampNatural v := by
  have hpos : 0 < 2 ^ (t.partBits - 1) := Nat.two_pow_pos _
  have hcast : ((2 ^ (t.partBits - 1) : Nat) : Int) = 2 ^ (t.partBits - 1) := Nat.cast_pow 2 _
  rw [← hcast]
  match v, h with
  | .finite false s e, _ =>
    unfold FloatValue.toIntWithin clampNatural
    dsimp only
    rw [if_neg Bool.false_ne_true]
    omega
  | .infinite false, _ =>
    unfold FloatValue.toIntWithin clampNatural
    dsimp only
    rw [if_neg Bool.false_ne_true]
    omega

theorem encodePart_of_float {t : ElementType} {format : FloatFormat}
    (ht : t.encoding = .float format) (x : Float) :
    t.encodePart x = format.encode (t.approach x) := by
  unfold encodePart
  rw [ht]

theorem decodePart_of_float {t : ElementType} {format : FloatFormat}
    (ht : t.encoding = .float format) (n : Nat) : t.decodePart n = format.decode n := by
  unfold decodePart
  rw [ht]

theorem encodePart_of_integer {t : ElementType} (ht : t.encoding = .integer)
    (h : (t.approach x).Below (t.approach x)) : t.encodePart x = t.clampNatural (t.approach x) := by
  have hle := t.clampNatural_le (t.approach x)
  have hbits : 0 < t.partBits := by cases t <;> decide
  have hpow : (2 ^ t.partBits : Nat) = 2 * 2 ^ (t.partBits - 1) := by
    rw [← Nat.pow_succ', Nat.succ_eq_add_one, Nat.sub_add_cancel hbits]
  have hpos : 0 < 2 ^ (t.partBits - 1) := Nat.two_pow_pos _
  have hcast : ((2 ^ t.partBits : Nat) : Int) = 2 ^ t.partBits := Nat.cast_pow 2 _
  unfold encodePart
  rw [ht]
  dsimp only
  rw [t.toIntWithin_eq h, ← hcast, Int.emod_eq_of_lt (by omega) (by omega), Int.toNat_natCast]

theorem decodePart_of_integer {t : ElementType} (ht : t.encoding = .integer) {n : Nat}
    (h : n ≤ 2 ^ (t.partBits - 1) - 1) : t.decodePart n = .finite false n 0 := by
  have hbits : 0 < t.partBits := by cases t <;> decide
  have hpow : (2 ^ t.partBits : Nat) = 2 * 2 ^ (t.partBits - 1) := by
    rw [← Nat.pow_succ', Nat.succ_eq_add_one, Nat.sub_add_cancel hbits]
  have hpos : 0 < 2 ^ (t.partBits - 1) := Nat.two_pow_pos _
  have hbmod : Int.bmod n (2 ^ t.partBits) = n := by
    rw [Int.bmod_eq_of_le_mul_two] <;> omega
  unfold decodePart
  rw [ht]
  dsimp only
  rw [hbmod]
  unfold FloatValue.ofInt
  rw [decide_eq_false (Int.not_lt.mpr (Int.natCast_nonneg n)), Int.natAbs_natCast]

/-- **Rounding keeps the order.** -/
theorem encodePart_mono (t : ElementType) (hy : Unsigned y) (h : code x ≤ code y) :
    t.encodePart x ≤ t.encodePart y := by
  have hbelow := t.approach_below hy h
  cases ht : t.encoding with
  | float format =>
    rw [encodePart_of_float ht, encodePart_of_float ht]
    exact format.encode_mono hbelow
  | integer =>
    rw [encodePart_of_integer ht (t.approach_below (h.trans hy) le_rfl),
      encodePart_of_integer ht (t.approach_below hy le_rfl)]
    exact t.clampNatural_mono hbelow

/-- Without a sign, the code of a part has its highest bit clear. -/
theorem encodePart_lt (t : ElementType) (h : Unsigned x) :
    t.encodePart x < 2 ^ (t.partBits - 1) := by
  have hbelow := t.approach_below h le_rfl
  cases ht : t.encoding with
  | float format =>
    have hwidth : format.exponentBits + format.mantissaBits = t.partBits - 1 := by
      cases t <;> first | (cases ht; rfl) | nomatch ht
    rw [encodePart_of_float ht, ← hwidth]
    exact Nat.lt_of_le_of_lt (format.encode_le hbelow) format.overflowCode_lt_signWeight
  | integer =>
    rw [encodePart_of_integer ht hbelow]
    exact Nat.lt_of_le_of_lt (t.clampNatural_le _) (Nat.sub_lt (Nat.two_pow_pos _) Nat.one_pos)

theorem encodePart_lt_two_pow (t : ElementType) (h : Unsigned x) :
    t.encodePart x < 2 ^ t.partBits :=
  Nat.lt_of_lt_of_le (t.encodePart_lt h) (Nat.pow_le_pow_right Nat.two_pos (Nat.sub_le _ _))

theorem decodePart_mono (t : ElementType) (hy : Unsigned y) {m : Nat}
    (h : m ≤ t.encodePart y) : (t.decodePart m).Below (t.decodePart (t.encodePart y)) := by
  have hlt := t.encodePart_lt hy
  have hbelow : (t.approach y).Below (t.approach y) := t.approach_below hy le_rfl
  cases ht : t.encoding with
  | float format =>
    rw [encodePart_of_float ht] at h ⊢
    rw [decodePart_of_float ht, decodePart_of_float ht]
    exact format.decode_mono h (format.encode_le hbelow)
  | integer =>
    rw [decodePart_of_integer ht (by omega), decodePart_of_integer ht (by omega)]
    show dyadic _ 0 ≤ dyadic _ 0
    rwa [dyadic_le_iff]

/-- **Quantizing keeps the order.** -/
theorem code_quantizePart_mono (t : ElementType) (hy : Unsigned y) (h : code x ≤ code y) :
    code (t.quantizePart x) ≤ code (t.quantizePart y) := by
  unfold quantizePart
  rw [code_toFloat (t.decodePart_mono (h.trans hy) le_rfl),
    code_toFloat (t.decodePart_mono hy le_rfl)]
  exact FloatFormat.binary64.encode_mono (t.decodePart_mono hy (t.encodePart_mono hy h))

theorem unsigned_quantizePart (t : ElementType) (h : Unsigned x) :
    Unsigned (t.quantizePart x) := by
  have hbelow := t.decodePart_mono h le_rfl
  unfold Unsigned quantizePart
  rw [code_toFloat hbelow]
  exact FloatFormat.binary64.encode_le hbelow

/-! ### Fixed points -/

theorem quantizePart_zero (t : ElementType) : t.quantizePart 0 = 0 := by cases t <;> decide +kernel

theorem quantizePart_one (t : ElementType) : t.quantizePart 1 = 1 := by cases t <;> decide

theorem quantizePart_greatest (t : ElementType) : t.quantizePart t.greatest = t.greatest := by
  cases t <;> decide +kernel

theorem unsigned_greatest (t : ElementType) : Unsigned t.greatest := by cases t <;> decide

theorem encodePart_zero (t : ElementType) : t.encodePart 0 = 0 := by cases t <;> decide +kernel

/-! ### Elements -/

theorem encode_zero (t : ElementType) : t.encode (.ofReal 0) = 0 := by cases t <;> decide +kernel

theorem decode_zero (t : ElementType) : t.decode 0 = .ofReal 0 := by cases t <;> decide +kernel

/-- A real number without a sign is quantized as its real part is. -/
theorem quantize_eq (t : ElementType) {z : ComplexFloat} (hre : Unsigned z.re)
    (him : t.isComplex = true → z.im = 0) : t.quantize z = .ofReal (t.quantizePart z.re) := by
  have hlt := t.encodePart_lt_two_pow hre
  unfold quantize decode encode
  cases hcomplex : t.isComplex with
  | false =>
    rw [if_neg Bool.false_ne_true, if_neg Bool.false_ne_true, BitVec.toNat_ofNat]
    have hbits : t.partBits = t.bits := by
      unfold partBits
      rw [hcomplex]
      rfl
    rw [Nat.mod_eq_of_lt (hbits ▸ hlt)]
    rfl
  | true =>
    have hbits : t.partBits ≤ t.bits := by cases t <;> decide
    have hsmall := Nat.lt_of_lt_of_le hlt (Nat.pow_le_pow_right Nat.two_pos hbits)
    rw [if_pos rfl, if_pos rfl, him hcomplex, encodePart_zero, Nat.mul_zero, Nat.add_zero,
      BitVec.toNat_ofNat, Nat.mod_eq_of_lt hsmall, Nat.mod_eq_of_lt hlt, Nat.div_eq_of_lt hlt]
    have hzero : (t.decodePart 0).toFloat = 0 := by
      rw [← t.encodePart_zero]
      exact t.quantizePart_zero
    rw [hzero]
    rfl

/-- Real numbers without a sign are stored in the same way if their parts are. -/
theorem encode_ofReal_eq_iff (t : ElementType) (hx : Unsigned x) (hy : Unsigned y) :
    t.encode (.ofReal x) = t.encode (.ofReal y) ↔ t.encodePart x = t.encodePart y := by
  have hbits : t.partBits ≤ t.bits := by cases t <;> decide
  have hlt : ∀ {z : Float}, Unsigned z → t.encodePart z < 2 ^ t.bits := fun hz =>
    Nat.lt_of_lt_of_le (t.encodePart_lt_two_pow hz) (Nat.pow_le_pow_right Nat.two_pos hbits)
  have hencode : ∀ z : Float, t.encode (.ofReal z) = BitVec.ofNat _ (t.encodePart z) := by
    intro z
    unfold encode
    split
    · show BitVec.ofNat _ (t.encodePart z + 2 ^ t.partBits * t.encodePart 0) = _
      rw [encodePart_zero, Nat.mul_zero, Nat.add_zero]
    · rfl
  rw [hencode, hencode, ← BitVec.toNat_inj, BitVec.toNat_ofNat, BitVec.toNat_ofNat,
    Nat.mod_eq_of_lt (hlt hx), Nat.mod_eq_of_lt (hlt hy)]

end ElementType

end FusedGemm
