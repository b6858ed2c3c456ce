import FusedGemm.Proofs.Numeric.ExactArithmetic
import FusedGemm.Proofs.Numeric.Squares

/-!
# Storing numbers beyond the range of a type

The types with 8 bits and the integers store every finite number as a finite one, and a number
beyond their range as the extreme value on its side.  The other types do so up to a bound half a
unit above their largest value, from which on they store an infinity (`ElementType.overflow?`):
`ElementType.stores_quantize` says this of both parts of a complex number.

Storing a float goes by its absolute value where the type has a sign bit
(`ElementType.abs_quantizePart`), and keeps the order of floats without signs.  So the two floats
next to the bound decide for all of them (`ElementType.bounded_quantizePart_iff`), and no value of
the type comes to lie between a float and what is stored of it.  Integers clamp, which keeps a float
on its side of each of them as well (`FloatValue.toIntWithin_sides`).
-/

namespace FusedGemm

open FloatValue

/-! ### Rounding with signs -/

namespace FloatFormat

variable (format : FloatFormat) {v : FloatValue}

/-- Without its sign, a rounded number is the number rounded without its sign. -/
theorem abs_round (hv : v ≠ .nan) : (format.round v).abs = format.round v.abs := by
  have hlt := (format.encode_le (below_abs hv)).trans_lt format.overflowCode_lt_signWeight
  unfold round
  rw [← format.decode_mod, format.encode_eq_withSign hv, format.withSign_mod _ hlt]

/-- Rounding keeps the sign. -/
theorem negative_round (hv : v ≠ .nan) : (format.round v).negative = v.negative := by
  have hpos : 0 < format.signWeight := Nat.two_pow_pos _
  have hlt := (format.encode_le (below_abs hv)).trans_lt format.overflowCode_lt_signWeight
  refine (format.negative_decode (format.round_ne_nan hv)).trans ?_
  rw [format.encode_eq_withSign hv]
  unfold withSign
  cases v.negative with
  | false =>
    rw [if_neg Bool.false_ne_true, Nat.div_eq_of_lt hlt]
    rfl
  | true =>
    rw [if_pos rfl, Nat.add_div_left _ hpos, Nat.div_eq_of_lt hlt]
    rfl

end FloatFormat

section Floats
variable {x y : Float}

theorem isNegative_eq_negative (x : Float) : isNegative x = (ofFloat x).negative := by
  unfold isNegative
  cases ofFloat x <;> rfl

theorem isNaN_of_isFinite (h : x.isFinite = true) : x.isNaN = false := by
  obtain ⟨negative, s, e, hvalue⟩ := exists_finite h
  refine Bool.eq_false_iff.mpr fun hnan => ?_
  rw [← ofFloat_eq_nan_iff, hvalue] at hnan
  cases hnan

/-- The absolute value of a float made of a number is made of the number without its sign. -/
theorem abs_toFloat {v : FloatValue} (hv : v ≠ .nan) : v.toFloat.abs = v.abs.toFloat := by
  have hnan := isNaN_toFloat hv
  have hnan' := isNaN_toFloat (abs_ne_nan hv)
  rw [← toFloat_ofFloat (unsigned_abs hnan).isNaN_eq, ofFloat_abs hnan, ofFloat_toFloat hv,
    FloatFormat.binary64.abs_round hv, ← ofFloat_toFloat (abs_ne_nan hv), toFloat_ofFloat hnan']

/-- A float is finite if its absolute value is. -/
theorem isFinite_iff_bounded_abs (h : x.isNaN = false) : x.isFinite = true ↔ Bounded x.abs := by
  refine ⟨bounded_abs, fun hbounded => ?_⟩
  obtain ⟨s, e, hparts⟩ := hbounded.exists_parts
  rw [isFinite_eq, ← isFinite_abs, ← ofFloat_abs h, hparts.value_eq]
  rfl

/-- What is not NaN is infinite if it is not finite. -/
theorem isInf_iff_not_isFinite (h : x.isNaN = false) : x.isInf = true ↔ ¬ x.isFinite = true := by
  have hkind := isNaN_isInf_eq x
  rw [isFinite_eq]
  rcases hvalue : ofFloat x with _ | negative | ⟨negative, s, e⟩ <;> rw [hvalue] at hkind
  · exact absurd (ofFloat_eq_nan_iff.mp hvalue) (by rw [h]; exact Bool.false_ne_true)
  · rw [(Prod.mk.inj hkind).2]
    exact iff_of_true rfl Bool.false_ne_true
  · rw [(Prod.mk.inj hkind).2]
    exact iff_of_false Bool.false_ne_true fun hfinite => hfinite rfl

/-! ### Numbers and their absolute values -/

theorem rational_abs (h : x.isFinite = true) : rational x.abs = |rational x| := by
  obtain ⟨negative, s, e, hvalue⟩ := exists_finite h
  unfold rational
  rw [ofFloat_abs (isNaN_of_isFinite h), hvalue, abs_toRat]
  rfl

/-- A finite float is its absolute value with its sign. -/
theorem rational_eq_signed (h : x.isFinite = true) :
    rational x = if isNegative x then -|rational x| else |rational x| := by
  obtain ⟨negative, s, e, hvalue⟩ := exists_finite h
  rw [isNegative_eq_negative]
  unfold rational
  rw [hvalue, abs_toRat]
  rfl

/-- **Finite floats without signs are in the order of their codes.** -/
theorem rational_le_iff (hx : Bounded x) (hy : Bounded y) :
    rational x ≤ rational y ↔ code x ≤ code y := by
  obtain ⟨s, e, hpartsx⟩ := hx.exists_parts
  obtain ⟨s', e', hpartsy⟩ := hy.exists_parts
  constructor
  · intro hle
    have hbelow : (ofFloat x).Below (ofFloat y) := by
      unfold rational at hle
      rw [hpartsx.value_eq, hpartsy.value_eq] at hle ⊢
      exact hle
    have hencode := FloatFormat.binary64.encode_mono hbelow
    rwa [hx.unsigned.encode_ofFloat, hy.unsigned.encode_ofFloat] at hencode
  · intro hle
    have hbelow := hy.unsigned.below hle
    unfold rational
    rw [hpartsx.value_eq, hpartsy.value_eq] at hbelow ⊢
    exact hbelow

/-- Without their signs, finite floats are in the order of the codes without the sign bit. -/
theorem abs_rational_le_iff (hx : x.isFinite = true) (hy : y.isFinite = true) :
    |rational x| ≤ |rational y| ↔ code x.abs ≤ code y.abs := by
  rw [← rational_abs hx, ← rational_abs hy, rational_le_iff (bounded_abs hx) (bounded_abs hy)]

theorem rational_nonneg (hx : Bounded x) : 0 ≤ rational x := by
  obtain ⟨s, e, hparts⟩ := hx.exists_parts
  unfold rational
  rw [hparts.value_eq]
  exact dyadic_nonneg s e

/-- Numbers of one sign are on the same side of another number if their absolute values are on the
same side of its absolute value. -/
theorem sides_of_abs {w x y : ℚ} {negative : Bool} (hx : x = if negative then -|x| else |x|)
    (hy : y = if negative then -|y| else |y|) (hlow : |w| ≤ |x| → |w| ≤ |y|)
    (hhigh : |x| ≤ |w| → |y| ≤ |w|) : (w ≤ x → w ≤ y) ∧ (x ≤ w → y ≤ w) := by
  have hxpos := abs_nonneg x
  have hypos := abs_nonneg y
  cases negative with
  | false =>
    rw [if_neg Bool.false_ne_true] at hx hy
    rw [← hx] at hxpos hlow hhigh
    rw [← hy] at hypos hlow hhigh
    rcases le_total 0 w with hw | hw
    · rw [abs_of_nonneg hw] at hlow hhigh
      exact ⟨hlow, hhigh⟩
    · refine ⟨fun _ => hw.trans hypos, fun hle => ?_⟩
      obtain rfl : w = 0 := le_antisymm hw (hxpos.trans hle)
      rw [abs_zero] at hhigh
      exact hhigh hle
  | true =>
    rw [if_pos rfl] at hx hy
    rw [← neg_eq_iff_eq_neg.mpr hx] at hxpos hlow hhigh
    rw [← neg_eq_iff_eq_neg.mpr hy] at hypos hlow hhigh
    rcases le_total 0 w with hw | hw
    · refine ⟨fun hle => ?_, fun _ => (neg_nonneg.mp hypos).trans hw⟩
      obtain rfl : w = 0 := le_antisymm (hle.trans (neg_nonneg.mp hxpos)) hw
      rw [abs_zero, neg_nonpos] at hhigh
      exact neg_nonpos.mp (hhigh hle)
    · rw [abs_of_nonpos hw, neg_le_neg_iff, neg_le_neg_iff] at hlow hhigh
      exact ⟨hhigh, hlow⟩

end Floats

/-! ### Integers -/

namespace FloatValue

theorem toIntWithin_mem {v : FloatValue} (hv : v.isFinite = true) {least greatest : Int}
    (h : least ≤ greatest) : least ≤ v.toIntWithin .toEven least greatest ∧
      v.toIntWithin .toEven least greatest ≤ greatest := by
  obtain ⟨negative, s, e, rfl⟩ := exists_of_isFinite hv
  exact ⟨le_max_left _ _, max_le h (min_le_left _ _)⟩

/-- **Clamping and rounding to an integer keep a number on its side of the integers in range.** -/
theorem toIntWithin_sides {v : FloatValue} (hv : v.isFinite = true) {least greatest j : Int}
    (hleast : least ≤ j) (hgreatest : j ≤ greatest) :
    ((j : ℚ) ≤ v.toRat → j ≤ v.toIntWithin .toEven least greatest) ∧
      (v.toRat ≤ j → v.toIntWithin .toEven least greatest ≤ j) := by
  obtain ⟨negative, s, e, rfl⟩ := exists_of_isFinite hv
  have hscale : Tie.toEven.scale j.natAbs 0 = j.natAbs := by simp [Tie.scale]
  have hdyadic : dyadic j.natAbs 0 = j.natAbs := by rw [dyadic, zpow_zero, mul_one]
  have hj : |(j : ℚ)| = j.natAbs := by rw [Nat.cast_natAbs, Int.cast_abs]
  -- before it is clamped, the rounded number is on the same side
  obtain ⟨i, hi⟩ : ∃ i : Int, i =
      if negative then -(Tie.toEven.scale s e : Int) else Tie.toEven.scale s e := ⟨_, rfl⟩
  have habs : |(i : ℚ)| = (Tie.toEven.scale s e : Nat) := by
    rw [hi]
    cases negative <;> simp
  have hsign : (i : ℚ) = if negative then -|(i : ℚ)| else |(i : ℚ)| := by
    rw [habs, hi]
    cases negative <;> simp
  have hsides := sides_of_abs (w := j) (x := (finite negative s e).toRat)
    (by rw [abs_toRat]; rfl) hsign
  rw [abs_toRat, habs, hj, Nat.cast_le, Nat.cast_le, Int.cast_le, Int.cast_le] at hsides
  obtain ⟨hbelow, habove⟩ := hsides
    (fun hle => hscale.symm.trans_le (Tie.toEven.scale_mono (hdyadic.trans_le hle)))
    (fun hle => (Tie.toEven.scale_mono (hle.trans hdyadic.ge)).trans hscale.le)
  unfold toIntWithin
  dsimp only
  rw [← hi]
  exact ⟨fun hle => le_max_of_le_right (le_min hgreatest (hbelow hle)),
    fun hle => max_le hleast ((min_le_right _ _).trans (habove hle))⟩

end FloatValue

/-! ### What a type stores -/

namespace ElementType

variable {t : ElementType} {format : FloatFormat} {x w : Float}

/-- From this number on, a part of the type is stored as infinity: it is halfway between the largest
number of the type and the next power of two.  For the 16-bit type with five exponent bits that is
65520, but what is rounded to it with 32 bits is stored as infinity, too.  A type that saturates has
no such number. -/
def overflow? : ElementType → Option ℚ
  | .f32 | .c32 => some (2 ^ 128 - 2 ^ 103)
  | .f16 => some (65520 - 1 / 2 ^ 9)
  | .bf16 => some (2 ^ 128 - 2 ^ 119)
  | .f8e4m3 | .f8e5m2 | .i8 | .i32 => none

/-- The float is as far from zero as what is stored as infinity. -/
def Overflows (t : ElementType) (x : Float) : Prop :=
  ∃ bound, t.overflow? = some bound ∧ bound ≤ |rational x|

/-- The float is a finite value of a part of the type. -/
def Holds (t : ElementType) (w : Float) : Prop :=
  w.isFinite = true ∧ ∃ n < 2 ^ t.partBits, (t.decodePart n).toFloat = w

/-- A finite float `x` is stored in a part of the type and read again as `y`. -/
structure Stores (t : ElementType) (x y : Float) : Prop where
  isInf_iff : y.isInf = true ↔ t.Overflows x
  /-- An infinity has the sign of the number. -/
  sign : t.Overflows x → isNegative y = isNegative x
  holds : ¬ t.Overflows x → t.Holds y
  /-- No value of the type is between the number and what is stored of it, so a number beyond the
  range of the type is stored as the extreme value on its side. -/
  sides : ¬ t.Overflows x → ∀ w, t.Holds w →
    (rational w ≤ rational x → rational w ≤ rational y) ∧
      (rational x ≤ rational w → rational y ≤ rational w)

/-! ### Values of a type -/

/-- A value of the type is stored as it is. -/
theorem Holds.quantizePart (h : t.Holds w) : t.quantizePart w = w := by
  obtain ⟨hfinite, n, hn, rfl⟩ := h
  have hnan := isNaN_toFloat_eq_false_iff.mp (isNaN_of_isFinite hfinite)
  unfold ElementType.quantizePart
  rw [encodePart_decodePart hn hnan]

theorem holds_quantizePart (h : (t.quantizePart x).isFinite = true) :
    t.Holds (t.quantizePart x) :=
  ⟨h, t.encodePart x, t.encodePart_lt_signed x, rfl⟩

/-! ### Floats -/

/-- A float is approached by its absolute value. -/
theorem abs_approach (t : ElementType) (hx : x.isNaN = false) :
    (t.approach x).abs = t.approach x.abs := by
  have habs := ofFloat_abs hx
  cases t
  case f16 =>
    show (FloatFormat.binary32.round (ofFloat x)).abs = FloatFormat.binary32.round (ofFloat x.abs)
    rw [FloatFormat.binary32.abs_round (ofFloat_ne_nan hx), habs]
  case bf16 =>
    have hle := FloatFormat.binary64.mod_le_overflowCode (ofFloat_ne_nan hx)
    have happroach : approach .bf16 x =
        FloatFormat.binary64.decode (code x / 2 ^ 32 * 2 ^ 32) := by
      unfold approach
      dsimp only
      rw [hx, if_neg Bool.false_ne_true]
      rfl
    -- cutting the lower half off leaves the sign bit
    have hcut : code x / 2 ^ 32 * 2 ^ 32 % FloatFormat.binary64.signWeight =
        code x % 2 ^ 63 / 2 ^ 32 * 2 ^ 32 := by
      show code x / 2 ^ 32 * 2 ^ 32 % 2 ^ 63 = _
      omega
    rw [happroach, approach_bf16 (unsigned_abs hx), code_abs_of_le hle, ← hcut,
      FloatFormat.decode_mod]
  all_goals exact habs.symm

theorem approach_ne_nan (t : ElementType) (hx : x.isNaN = false) : t.approach x ≠ .nan := by
  intro hnan
  have hbelow := t.approach_below (unsigned_abs hx) le_rfl
  rw [← t.abs_approach hx, hnan] at hbelow
  exact hbelow

theorem negative_approach (t : ElementType) (hx : x.isNaN = false) :
    (t.approach x).negative = (ofFloat x).negative := by
  have hne := t.approach_ne_nan hx
  cases t
  case f16 => exact FloatFormat.binary32.negative_round (ofFloat_ne_nan hx)
  case bf16 =>
    unfold approach at hne ⊢
    dsimp only at hne ⊢
    rw [hx, if_neg Bool.false_ne_true] at hne ⊢
    rw [FloatFormat.binary64.negative_decode hne,
      show (ofFloat x).negative = _ from FloatFormat.binary64.negative_decode (ofFloat_ne_nan hx)]
    show (code x / 2 ^ 32 * 2 ^ 32 / 2 ^ 63 % 2 == 1) = (code x / 2 ^ 63 % 2 == 1)
    have hcut : code x / 2 ^ 32 * 2 ^ 32 / 2 ^ 63 = code x / 2 ^ 63 := by omega
    rw [hcut]
  all_goals rfl

/-- What is not NaN is not stored as NaN. -/
theorem decodePart_encodePart_ne_nan (t : ElementType) (hx : x.isNaN = false) :
    t.decodePart (t.encodePart x) ≠ .nan := by
  cases ht : t.encoding with
  | float format =>
    rw [decodePart_of_float ht, encodePart_of_float ht]
    exact format.round_ne_nan (t.approach_ne_nan hx)
  | integer =>
    rw [decodePart_eq_ofInt ht]
    exact FloatValue.noConfusion

theorem isNaN_quantizePart (t : ElementType) (hx : x.isNaN = false) :
    (t.quantizePart x).isNaN = false :=
  isNaN_toFloat (t.decodePart_encodePart_ne_nan hx)

section SignBit
variable (ht : t.encoding = .float format) (hx : x.isNaN = false)
include ht hx

/-- **Where a type has a sign bit, a float is stored as its absolute value is.** -/
theorem abs_quantizePart : (t.quantizePart x).abs = t.quantizePart x.abs := by
  have hnan := t.decodePart_encodePart_ne_nan hx
  unfold quantizePart
  rw [abs_toFloat hnan]
  congr 1
  rw [decodePart_of_float ht, decodePart_of_float ht, encodePart_of_float ht,
    encodePart_of_float ht, ← t.abs_approach hx]
  exact format.abs_round (t.approach_ne_nan hx)

/-- The sign is kept. -/
theorem isNegative_quantizePart : isNegative (t.quantizePart x) = isNegative x := by
  have hnan := t.decodePart_encodePart_ne_nan hx
  rw [isNegative_eq_negative, isNegative_eq_negative]
  unfold quantizePart
  rw [ofFloat_toFloat hnan, FloatFormat.binary64.negative_round hnan, decodePart_of_float ht,
    encodePart_of_float ht, ← t.negative_approach hx]
  exact format.negative_round (t.approach_ne_nan hx)

end SignBit

/-! ### The bounds -/

/-- The bound of a type is the first float that is stored as infinity; the last one before it is
stored as a number.  A type without a bound stores the largest float as a number. -/
theorem overflow?_cases (t : ElementType) :
    (∃ first last, t.overflow? = some (rational first) ∧ Bounded first ∧
      code first = code last + 1 ∧ t.quantizePart first = infinity ∧
        Bounded (t.quantizePart last)) ∨
      t.overflow? = none ∧ Bounded (t.quantizePart (Float.ofBits 0x7fefffffffffffff)) := by
  cases t
  case f32 | c32 =>
    exact Or.inl ⟨Float.ofBits 0x47effffff0000000, Float.ofBits 0x47efffffefffffff,
      by decide +kernel, by decide, by decide, by decide +kernel, by decide +kernel⟩
  case f16 =>
    exact Or.inl ⟨Float.ofBits 0x40effdfff0000000, Float.ofBits 0x40effdffefffffff,
      by decide +kernel, by decide, by decide, by decide +kernel, by decide +kernel⟩
  case bf16 =>
    exact Or.inl ⟨Float.ofBits 0x47eff00000000000, Float.ofBits 0x47efefffffffffff,
      by decide +kernel, by decide, by decide, by decide +kernel, by decide +kernel⟩
  all_goals exact Or.inr ⟨rfl, by decide +kernel⟩

/-- **A finite float without a sign is stored as a number if and only if it is below the bound**, as
storing keeps the order. -/
theorem bounded_quantizePart_iff (hx : Bounded x) :
    Bounded (t.quantizePart x) ↔ ¬ t.Overflows x := by
  have habs : |rational x| = rational x := abs_of_nonneg (rational_nonneg hx)
  unfold Overflows
  rw [habs]
  rcases t.overflow?_cases with ⟨first, last, hbound, hfirst, hnext, hinfinite, hlast⟩ |
    ⟨hnone, hlargest⟩
  · have hiff : (∃ bound, t.overflow? = some bound ∧ bound ≤ rational x) ↔ code first ≤ code x := by
      rw [hbound, ← rational_le_iff hfirst hx]
      exact ⟨fun ⟨_, heq, hle⟩ => Option.some.inj heq ▸ hle, fun hle => ⟨_, rfl, hle⟩⟩
    rw [hiff, Nat.not_le]
    constructor
    · intro hbounded
      by_contra hle
      have hmono := t.code_quantizePart_mono hx.unsigned (Nat.not_lt.mp hle)
      rw [hinfinite] at hmono
      exact absurd (hmono.trans hbounded) (by decide)
    · intro hlt
      have hle : code last ≤ code first := by omega
      exact (t.code_quantizePart_mono (hle.trans hfirst.unsigned) (by omega)).trans hlast
  · refine iff_of_true ?_ fun ⟨_, heq, _⟩ => by rw [hnone] at heq; cases heq
    exact (t.code_quantizePart_mono (by decide) (hx.trans (by decide))).trans hlargest

/-! ### Storing -/

theorem stores_of_float (ht : t.encoding = .float format) (hx : x.isFinite = true) :
    t.Stores x (t.quantizePart x) := by
  have hnan := isNaN_of_isFinite hx
  have hnan' := t.isNaN_quantizePart hnan
  have habs := abs_quantizePart ht hnan
  have hsign := isNegative_quantizePart ht hnan
  have hfinite : (t.quantizePart x).isFinite = true ↔ ¬ t.Overflows x := by
    have hoverflows : t.Overflows x.abs ↔ t.Overflows x := by
      unfold Overflows
      rw [rational_abs hx, abs_abs]
    rw [isFinite_iff_bounded_abs hnan', habs, bounded_quantizePart_iff (bounded_abs hx), hoverflows]
  refine ⟨?_, fun _ => hsign, fun h => holds_quantizePart (hfinite.mpr h), fun h w hw => ?_⟩
  · rw [isInf_iff_not_isFinite hnan', hfinite, not_not]
  · -- absolute values are on the same side, as storing keeps their order and that of the value
    have hwfinite := hw.1
    have hy := hfinite.mpr h
    have hkept : t.quantizePart w.abs = w.abs := by
      rw [← abs_quantizePart ht (isNaN_of_isFinite hwfinite), hw.quantizePart]
    have hmono := t.code_quantizePart_mono (x := w.abs) (bounded_abs hx).unsigned
    have hmono' := t.code_quantizePart_mono (x := x.abs) (bounded_abs hwfinite).unsigned
    rw [hkept, ← habs] at hmono hmono'
    refine sides_of_abs (rational_eq_signed hx) (hsign ▸ rational_eq_signed hy) ?_ ?_
    · rwa [abs_rational_le_iff hwfinite hx, abs_rational_le_iff hwfinite hy]
    · rwa [abs_rational_le_iff hx hwfinite, abs_rational_le_iff hy hwfinite]

/-- The float of an integer of 53 bits stands for that integer. -/
theorem rational_ofInt {i : Int} (hi : i.natAbs < 2 ^ 53) :
    (ofInt i).toFloat.isFinite = true ∧ rational (ofInt i).toFloat = i := by
  have hsame := round_ofInt hi
  rw [← ofFloat_toFloat FloatValue.noConfusion] at hsame
  have hvalue := toRat_ofScaled i 0
  rw [zpow_zero, mul_one] at hvalue
  exact ⟨(isFinite_eq _).trans hsame.isFinite_eq, hsame.toRat_eq.trans hvalue⟩

/-- An integer type holds the integer that a float is rounded and clamped to. -/
theorem quantizePart_of_integer (ht : t.encoding = .integer) {i : Int}
    (hi : i = (ofFloat x).toIntWithin .toEven (-2 ^ (t.partBits - 1)) (2 ^ (t.partBits - 1) - 1))
    (hlow : -2 ^ (t.partBits - 1) ≤ i) (hhigh : i ≤ 2 ^ (t.partBits - 1) - 1) :
    t.quantizePart x = (ofInt i).toFloat := by
  have happroach : t.approach x = ofFloat x := by cases t <;> first | rfl | cases ht
  have hpow : (2 : Int) ^ t.partBits = 2 * 2 ^ (t.partBits - 1) ∧ (0 : Int) < 2 ^ t.partBits := by
    cases t <;> cases ht <;> decide
  have hcast : ((2 ^ t.partBits : Nat) : Int) = 2 ^ t.partBits := Nat.cast_pow 2 _
  have hcode : (t.encodePart x : Int) = i % (2 ^ t.partBits : Nat) := by
    unfold encodePart
    rw [ht, happroach, hcast]
    dsimp only
    rw [← hi, Int.toNat_of_nonneg (Int.emod_nonneg _ hpow.2.ne')]
  unfold quantizePart
  rw [decodePart_eq_ofInt ht, hcode, Int.emod_bmod, Int.bmod_eq_of_le_mul_two] <;>
    rw [hcast] <;> omega

theorem stores_of_integer (ht : t.encoding = .integer) (hx : x.isFinite = true) :
    t.Stores x (t.quantizePart x) := by
  have hfits : (0 : Int) < 2 ^ (t.partBits - 1) ∧ (2 : Int) ^ (t.partBits - 1) ≤ 2 ^ 31 := by
    cases t <;> cases ht <;> decide
  have hoverflows : ¬ t.Overflows x := by
    rintro ⟨bound, hbound, -⟩
    cases t <;> cases ht <;> cases hbound
  obtain ⟨i, hi⟩ : ∃ i, i = (ofFloat x).toIntWithin .toEven (-2 ^ (t.partBits - 1))
    (2 ^ (t.partBits - 1) - 1) := ⟨_, rfl⟩
  have hrange := toIntWithin_mem ((isFinite_eq x).symm.trans hx)
    (show -2 ^ (t.partBits - 1) ≤ (2 : Int) ^ (t.partBits - 1) - 1 by omega)
  rw [← hi] at hrange
  obtain ⟨hfinite, hvalue⟩ := rational_ofInt (i := i) (by omega)
  have hy := quantizePart_of_integer ht hi hrange.1 hrange.2
  rw [← hy] at hfinite hvalue
  refine ⟨iff_of_false (fun hinf => ?_) hoverflows, fun h => absurd h hoverflows,
    fun _ => holds_quantizePart hfinite, fun _ w hw => ?_⟩
  · exact (isInf_iff_not_isFinite (isNaN_of_isFinite hfinite)).mp hinf hfinite
  · obtain ⟨-, n, -, rfl⟩ := hw
    obtain ⟨hlow, hhigh⟩ := bmod_bounds ht n
    have hw := (rational_ofInt (i := Int.bmod n (2 ^ t.partBits)) (by omega)).2
    rw [decodePart_eq_ofInt ht, hw, hvalue, Int.cast_le, Int.cast_le, hi]
    exact toIntWithin_sides ((isFinite_eq x).symm.trans hx) hlow hhigh

/-- **A finite float is stored as a number on its side of all others, or overflows.** -/
theorem stores_quantizePart (t : ElementType) (hx : x.isFinite = true) :
    t.Stores x (t.quantizePart x) := by
  cases ht : t.encoding with
  | float format => exact stores_of_float ht hx
  | integer => exact stores_of_integer ht hx

/-- Neither number is as large as 65520, but the second one is rounded to it with 32 bits. -/
example : ElementType.f16.quantizePart 65519.99 = 65504 ∧
    ElementType.f16.quantizePart 65519.999 = infinity := by decide +kernel

/-- **Each part of a complex number with finite parts is stored as a finite number, unless it is at
the bound of the type or beyond, from which on it is stored as an infinity.**  A number beyond the
range of a type that is not stored as an infinity is stored as the extreme value on its side. -/
theorem stores_quantize (t : ElementType) {z : ComplexFloat} (hre : z.re.isFinite = true)
    (him : z.im.isFinite = true) : t.Stores z.re (t.quantize z).re ∧
      if t.isComplex then t.Stores z.im (t.quantize z).im else (t.quantize z).im = 0 := by
  cases hcomplex : t.isComplex with
  | false =>
    rw [quantize_of_real z hcomplex]
    exact ⟨t.stores_quantizePart hre, rfl⟩
  | true =>
    rw [quantize_of_complex z hcomplex, if_pos rfl]
    exact ⟨t.stores_quantizePart hre, t.stores_quantizePart him⟩

/-- The number `10 ^ 39` is beyond the bound of the 32-bit type. -/
theorem stores_quantize_large : (1e39 : Float).isFinite = true ∧ (0 : Float).isFinite = true ∧
    ElementType.f32.Overflows 1e39 ∧
    ElementType.f32.Stores 1e39 (ElementType.f32.quantize (.ofReal 1e39)).re ∧
    (ElementType.f32.quantize (.ofReal 1e39)).im = 0 := by
  have hlarge : (1e39 : Float).isFinite = true := by decide +kernel
  have hzero : (0 : Float).isFinite = true := by decide
  obtain ⟨hre, him⟩ := ElementType.f32.stores_quantize (z := .ofReal 1e39) hlarge hzero
  exact ⟨hlarge, hzero, ⟨_, rfl, by decide +kernel⟩, hre, him⟩

/-- It is stored as an infinity. -/
theorem quantize_infinite : (ComplexFloat.ofReal 1e39).re.isFinite = true ∧
    (ComplexFloat.ofReal 1e39).im.isFinite = true ∧
      (ElementType.f32.quantize (.ofReal 1e39)).re.isFinite = false := by
  decide +kernel

end ElementType

end FusedGemm
