import FusedGemm.Proofs.Numeric.Widening

/-!
# Exact arithmetic

Sums, differences and products of finite floats, whatever their signs, are the exact ones rounded
(`PacksTo`), so they are exact where a float stands for the exact result (`Representable`):
`rational_add`, `rational_sub` and `rational_mul`.  A number is rounded to an integer that is no
farther from zero than the bounds of the number are (`rational_roundAway`).
-/

namespace FusedGemm

open Float.Model Float.Model.UnpackedFloat

/-! ### Rationals with signs -/

theorem dyadic_eq_intCast (m : Nat) (e : Int) : dyadic m e = ((m : Int) : ℚ) * 2 ^ e := by
  rw [dyadic, Int.cast_natCast]

namespace FloatValue

/-- The number with the other sign. -/
def neg : FloatValue → FloatValue
  | .finite negative s e => .finite (!negative) s e
  | .infinite negative => .infinite (!negative)
  | .nan => .nan

@[simp] theorem abs_neg_eq (v : FloatValue) : v.neg.abs = v.abs := by cases v <;> rfl

theorem isFinite_abs (v : FloatValue) : v.abs.isFinite = v.isFinite := by cases v <;> rfl

theorem toRat_neg (v : FloatValue) : v.neg.toRat = -v.toRat := by
  cases v with
  | nan => exact neg_zero.symm
  | infinite negative => exact neg_zero.symm
  | finite negative s e =>
    cases negative with
    | false => rfl
    | true => exact (neg_neg _).symm

theorem toRat_finite (negative : Bool) (s : Nat) (e : Int) :
    (finite negative s e).toRat = ((signOf negative).apply s : Int) * 2 ^ e := by
  cases negative with
  | false => exact dyadic_eq_intCast s e
  | true =>
    show -dyadic s e = ((-(s : Int) : Int) : ℚ) * 2 ^ e
    rw [dyadic_eq_intCast, Int.cast_neg, neg_mul]

theorem toRat_zero (negative : Bool) (e : Int) : (finite negative 0 e).toRat = 0 := by
  cases negative with
  | false => exact zero_dyadic e
  | true =>
    show -dyadic 0 e = 0
    rw [zero_dyadic, neg_zero]

/-- An integer times a power of two. -/
def ofScaled (i e : Int) : FloatValue := .finite (decide (i < 0)) i.natAbs e

theorem toRat_ofScaled (i e : Int) : (ofScaled i e).toRat = i * 2 ^ e := by
  have happly : (signOf (decide (i < 0))).apply i.natAbs = i := by
    rcases lt_or_ge i 0 with hneg | hnonneg
    · rw [decide_eq_true hneg]
      show -(i.natAbs : Int) = i
      omega
    · rw [decide_eq_false (Int.not_lt.mpr hnonneg)]
      show (i.natAbs : Int) = i
      omega
  rw [ofScaled, toRat_finite, happly]

theorem abs_toRat (negative : Bool) (s : Nat) (e : Int) :
    |(finite negative s e).toRat| = dyadic s e := by
  have hnonneg := dyadic_nonneg s e
  cases negative with
  | false => exact abs_of_nonneg hnonneg
  | true => exact (abs_neg _).trans (abs_of_nonneg hnonneg)

end FloatValue

/-! ### Unpacked results -/

/-- The unpacked float is packed to a code that the rational is rounded to. -/
def PacksTo (u : UnpackedFloat) (q : ℚ) : Prop :=
  ∃ v : FloatValue, v.isFinite = true ∧ v.toRat = q ∧
    (UnpackedFloat.pack Format.binary64 u).toNat = FloatFormat.binary64.encode v

/-- The number is that of a finite code, up to its sign. -/
def Packed (v : FloatValue) : Prop :=
  ∃ n ≤ FloatFormat.binary64.maxCode, v.abs = FloatFormat.binary64.decode n

theorem packed_ofFloat {x : Float} (h : x.isFinite = true) : Packed (FloatValue.ofFloat x) := by
  rw [isFinite_eq] at h
  have habs : (FloatValue.ofFloat x).abs = FloatFormat.binary64.decode (code x % 2 ^ 63) :=
    (FloatFormat.binary64.decode_mod (code x)).symm
  refine ⟨code x % 2 ^ 63, ?_, habs⟩
  -- else the float would be infinite or NaN
  by_contra hlarge
  have hnan : FloatValue.ofFloat x ≠ .nan := by
    intro hvalue
    rw [hvalue] at h
    cases h
  rw [FloatFormat.decode_of_lt _ (Nat.lt_of_not_le hlarge)
    (FloatFormat.binary64.mod_le_overflowCode hnan)] at habs
  rw [← FloatValue.isFinite_abs, habs] at h
  cases h

section Packed
variable {v w : FloatValue}

theorem Packed.neg (h : Packed v) : Packed v.neg := by
  obtain ⟨n, hn, habs⟩ := h
  exact ⟨n, hn, v.abs_neg_eq.trans habs⟩

theorem Packed.isFinite (h : Packed v) : v.isFinite = true := by
  obtain ⟨n, hn, habs⟩ := h
  rw [← v.isFinite_abs, habs, FloatFormat.decode_of_le _ hn]
  exact FloatFormat.isFinite_magnitudeValue _ _ _

/-- What has been unpacked is packed again. -/
theorem Packed.packsTo (h : Packed v) : PacksTo v.toUnpacked v.toRat := by
  have hfinite := h.isFinite
  obtain ⟨n, hn, habs⟩ := h
  have hle := hn.trans FloatFormat.binary64.maxCode_le_overflowCode
  have hnan : v ≠ .nan := by
    rintro rfl
    cases hfinite
  refine ⟨v, hfinite, rfl, ?_⟩
  rw [toNat_pack_toUnpacked hnan, FloatFormat.encode_eq_withSign _ hnan, ← v.unpacked_abs, habs,
    FloatFormat.encode_decode _ hle, toNat_pack_unpacked hle]

end Packed

/-- The sign of a number is put on what it is rounded to without it. -/
theorem toNat_pack_signOf (negative : Bool) (m : Nat) (e : Int) (accuracy : Accuracy) :
    (UnpackedFloat.pack Format.binary64
        (roundWithAccuracy Format.binary64 (FloatValue.signOf negative) m e accuracy)).toNat =
      FloatFormat.binary64.withSign negative (UnpackedFloat.pack Format.binary64
        (roundWithAccuracy Format.binary64 .positive m e accuracy)).toNat := by
  obtain ⟨r, t, hround⟩ : ∃ r t, ∀ negative,
      roundWithAccuracy Format.binary64 (FloatValue.signOf negative) m e accuracy =
        (FloatValue.finite negative r t).toUnpacked := ⟨_, _, fun _ => rfl⟩
  have hpositive := toNat_pack_toUnpacked (v := .finite false r t) FloatValue.noConfusion
  rw [← hround false] at hpositive
  rw [hround negative, toNat_pack_toUnpacked FloatValue.noConfusion]
  exact congrArg _ hpositive.symm

theorem packsTo_round (negative : Bool) {m : Nat} (hm : 0 < m) (e : Int) :
    PacksTo (UnpackedFloat.round Format.binary64 (FloatValue.signOf negative) m e)
      (FloatValue.finite negative m e).toRat := by
  refine ⟨.finite negative m e, rfl, rfl, ?_⟩
  refine (toNat_pack_signOf negative _ _ _).trans ?_
  exact congrArg (FloatFormat.binary64.withSign negative) (toNat_pack_round hm)

theorem packsTo_zero (s : Sign) : PacksTo (.zero s) 0 := by
  cases s with
  | negative => exact ⟨.finite true 0 0, rfl, by decide +kernel, by decide⟩
  | positive => exact ⟨.finite false 0 0, rfl, by decide +kernel, by decide⟩

/-- An integer times a power of two is rounded with its sign. -/
theorem packsTo_normalize (i e : Int) (s : Sign) :
    PacksTo (UnpackedFloat.normalize Format.binary64 i e s) (i * 2 ^ e) := by
  rw [normalize_cases]
  split_ifs with hneg hzero
  · have habs : (-i).toNat = i.natAbs := by omega
    rw [← FloatValue.toRat_ofScaled, FloatValue.ofScaled, decide_eq_true hneg, habs]
    exact packsTo_round true (by omega) e
  · rw [hzero, Int.cast_zero, zero_mul]
    exact packsTo_zero s
  · have habs : i.toNat = i.natAbs := by omega
    rw [← FloatValue.toRat_ofScaled, FloatValue.ofScaled, decide_eq_false hneg, habs]
    exact packsTo_round false (by omega) e

/-! ### Operations -/

/-- A significand is shifted with its sign. -/
theorem apply_decreaseExponent (negative : Bool) (m : Nat) {e low : Int} (h : low ≤ e) :
    (((FloatValue.signOf negative).apply (decreaseExponent m e low).1 : Int) : ℚ) * 2 ^ low =
      (FloatValue.finite negative m e).toRat := by
  have hshift : dyadic (decreaseExponent m e low).1 low = dyadic m e := by
    show dyadic (m <<< (e - low).toNat) low = _
    rw [Nat.shiftLeft_eq]
    exact dyadic_shift_to h m
  rw [← FloatValue.toRat_finite]
  unfold FloatValue.toRat
  dsimp only
  rw [hshift]

section Operations
variable {v w : FloatValue}

/-- **A sum is packed to what the exact sum is rounded to.** -/
theorem packsTo_add (hv : Packed v) (hw : Packed w) :
    PacksTo (UnpackedFloat.add Format.binary64 v.toUnpacked w.toUnpacked) (v.toRat + w.toRat) := by
  have hpack := hv.packsTo
  have hpack' := hw.packsTo
  obtain ⟨negative, s, e, rfl⟩ := FloatValue.exists_of_isFinite hv.isFinite
  obtain ⟨negative', s', e', rfl⟩ := FloatValue.exists_of_isFinite hw.isFinite
  rcases Nat.eq_zero_or_pos s with rfl | hs
  · rw [FloatValue.toRat_zero, zero_add]
    rcases Nat.eq_zero_or_pos s' with rfl | hs'
    · rw [FloatValue.toRat_zero]
      cases negative <;> cases negative' <;> exact packsTo_zero _
    · rw [FloatValue.toUnpacked_of_pos hs'] at hpack' ⊢
      exact hpack'
  rcases Nat.eq_zero_or_pos s' with rfl | hs'
  · rw [FloatValue.toRat_zero, add_zero]
    rw [FloatValue.toUnpacked_of_pos hs] at hpack ⊢
    exact hpack
  · rw [FloatValue.toUnpacked_of_pos hs, FloatValue.toUnpacked_of_pos hs',
      ← apply_decreaseExponent negative s (min_le_left e e'),
      ← apply_decreaseExponent negative' s' (min_le_right e e'), ← add_mul, ← Int.cast_add]
    exact packsTo_normalize _ _ _

/-- Subtracting is adding with the other sign. -/
theorem sub_toUnpacked (hv : v.isFinite = true) (hw : w.isFinite = true) :
    UnpackedFloat.sub Format.binary64 v.toUnpacked w.toUnpacked =
      UnpackedFloat.add Format.binary64 v.toUnpacked w.neg.toUnpacked := by
  obtain ⟨negative, s, e, rfl⟩ := FloatValue.exists_of_isFinite hv
  obtain ⟨negative', s', e', rfl⟩ := FloatValue.exists_of_isFinite hw
  unfold FloatValue.neg
  dsimp only
  rcases Nat.eq_zero_or_pos s with rfl | hs <;> rcases Nat.eq_zero_or_pos s' with rfl | hs'
  · cases negative <;> cases negative' <;> rfl
  · rw [FloatValue.toUnpacked_of_pos hs', FloatValue.toUnpacked_of_pos hs']
    cases negative' <;> rfl
  · rw [FloatValue.toUnpacked_of_pos hs]
    rfl
  · rw [FloatValue.toUnpacked_of_pos hs, FloatValue.toUnpacked_of_pos hs',
      FloatValue.toUnpacked_of_pos hs', sub_finite]
    cases negative' with
    | false => rfl
    | true =>
      refine congrArg (fun i => UnpackedFloat.normalize Format.binary64 i _ _) ?_
      exact Int.sub_neg _ _

/-- **A difference is packed to what the exact difference is rounded to.** -/
theorem packsTo_sub (hv : Packed v) (hw : Packed w) :
    PacksTo (UnpackedFloat.sub Format.binary64 v.toUnpacked w.toUnpacked) (v.toRat - w.toRat) := by
  rw [sub_toUnpacked hv.isFinite hw.isFinite, sub_eq_add_neg, ← w.toRat_neg]
  exact packsTo_add hv hw.neg

/-- Without its sign the number is that of a float. -/
theorem Packed.exists_parts {negative : Bool} {s : Nat} {e : Int}
    (h : Packed (.finite negative s e)) : ∃ x, Parts x s e := by
  obtain ⟨n, hn, habs⟩ := h
  have hcode : code (Float.ofBits (UInt64.ofNat n)) = n :=
    code_ofBits (hn.trans FloatFormat.binary64.maxCode_le_overflowCode)
  have hbounded : Bounded (Float.ofBits (UInt64.ofNat n)) := hcode.trans_le hn
  obtain ⟨s', e', hparts⟩ := hbounded.exists_parts
  have hvalue : FloatValue.ofFloat (Float.ofBits (UInt64.ofNat n)) = .finite false s e := by
    show FloatFormat.binary64.decode (code _) = _
    rw [hcode, ← habs]
    rfl
  obtain ⟨-, rfl, rfl⟩ := FloatValue.finite.inj (hparts.value_eq.symm.trans hvalue)
  exact ⟨_, hparts⟩

theorem toRat_mul (negative negative' : Bool) (s s' : Nat) (e e' : Int) :
    (FloatValue.finite negative s e).toRat * (FloatValue.finite negative' s' e').toRat =
      (FloatValue.finite (negative ^^ negative') (s * s') (e + e')).toRat := by
  have hmul := dyadic_mul s s' e e'
  cases negative <;> cases negative'
  · exact hmul.symm
  · show dyadic s e * -dyadic s' e' = -dyadic (s * s') (e + e')
    rw [mul_neg, hmul]
  · show -dyadic s e * dyadic s' e' = -dyadic (s * s') (e + e')
    rw [neg_mul, hmul]
  · show -dyadic s e * -dyadic s' e' = dyadic (s * s') (e + e')
    rw [neg_mul_neg, hmul]

/-- **A product is packed to what the exact product is rounded to.** -/
theorem packsTo_mul (hv : Packed v) (hw : Packed w) :
    PacksTo (UnpackedFloat.mul Format.binary64 v.toUnpacked w.toUnpacked) (v.toRat * w.toRat) := by
  obtain ⟨negative, s, e, rfl⟩ := FloatValue.exists_of_isFinite hv.isFinite
  obtain ⟨negative', s', e', rfl⟩ := FloatValue.exists_of_isFinite hw.isFinite
  rcases Nat.eq_zero_or_pos s with rfl | hs
  · rw [FloatValue.toRat_zero, zero_mul]
    rcases Nat.eq_zero_or_pos s' with rfl | hs'
    · exact packsTo_zero _
    · rw [FloatValue.toUnpacked_of_pos hs']
      exact packsTo_zero _
  rcases Nat.eq_zero_or_pos s' with rfl | hs'
  · rw [FloatValue.toRat_zero, mul_zero, FloatValue.toUnpacked_of_pos hs]
    exact packsTo_zero _
  · rw [FloatValue.toUnpacked_of_pos hs, FloatValue.toUnpacked_of_pos hs', toRat_mul]
    refine ⟨_, rfl, rfl, ?_⟩
    have hsign : FloatValue.signOf negative * FloatValue.signOf negative' =
        FloatValue.signOf (negative ^^ negative') := by
      cases negative <;> cases negative' <;> rfl
    obtain ⟨x, hx⟩ := hv.exists_parts
    obtain ⟨y, hy⟩ := hw.exists_parts
    have hmul := code_mul_unpacked x y
    rw [hx.code_mul hy, hx.unpack_eq, hy.unpack_eq, FloatValue.unpacked_of_pos hs,
      FloatValue.unpacked_of_pos hs'] at hmul
    show (UnpackedFloat.pack Format.binary64 (roundWithAccuracy Format.binary64
      (FloatValue.signOf negative * FloatValue.signOf negative') (s * s') (e + e') .exact)).toNat =
        FloatFormat.binary64.withSign _ (FloatFormat.binary64.encode (.finite false _ _))
    rw [hsign, toNat_pack_signOf, hmul]
    rfl

end Operations

/-! ### Exact results -/

/-- A float stands for the rational: it is an integer of at most 53 bits times a power of two that is
not too small, and not beyond the largest float. -/
def Representable (q : ℚ) : Prop :=
  ∃ i e : Int, q = i * 2 ^ e ∧ i.natAbs < 2 ^ 53 ∧ -1074 ≤ e ∧
    |q| ≤ FloatFormat.binary64.largest.toRat

/-- A number that a float stands for is not changed by rounding. -/
theorem round_same_of_representable {v : FloatValue} (hv : v.isFinite = true)
    (h : Representable v.toRat) : (FloatFormat.binary64.round v).Same v := by
  obtain ⟨negative, s, e, rfl⟩ := FloatValue.exists_of_isFinite hv
  obtain ⟨i, e', hq, hi, he, hmax⟩ := h
  have habs : dyadic s e = dyadic i.natAbs e' := by
    rw [← FloatValue.abs_toRat negative, hq, ← FloatValue.toRat_ofScaled]
    exact FloatValue.abs_toRat _ _ _
  have hsame : (FloatValue.finite negative s e).Same (.finite negative i.natAbs e') := ⟨rfl, habs⟩
  rw [FloatValue.abs_toRat, habs] at hmax
  have hround := FloatFormat.binary64.round_same hi he hmax negative
  unfold FloatFormat.round at hround ⊢
  rw [FloatFormat.binary64.encode_congr_same hsame]
  exact hround.trans hsame.symm

/-- A float that is packed from an exact result stands for it. -/
theorem PacksTo.rational_eq {u : UnpackedFloat} {q : ℚ} {x : Float} (h : PacksTo u q)
    (hx : code x = (UnpackedFloat.pack Format.binary64 u).toNat) (hq : Representable q) :
    x.isFinite = true ∧ rational x = q := by
  obtain ⟨v, hv, rfl, hcode⟩ := h
  have hsame := round_same_of_representable hv hq
  have hvalue : FloatValue.ofFloat x = FloatFormat.binary64.round v := by
    show FloatFormat.binary64.decode (code x) = _
    rw [hx, hcode]
    rfl
  rw [isFinite_eq, rational, hvalue, hsame.isFinite_eq, hsame.toRat_eq]
  exact ⟨hv, rfl⟩

section Rationals
variable {x y : Float} (hx : x.isFinite = true) (hy : y.isFinite = true)
include hx hy

/-- **A sum that a float stands for is exact.** -/
theorem rational_add (h : Representable (rational x + rational y)) :
    (x + y).isFinite = true ∧ rational (x + y) = rational x + rational y := by
  refine (packsTo_add (packed_ofFloat hx) (packed_ofFloat hy)).rational_eq ?_ h
  rw [← unpack_toModel, ← unpack_toModel]
  rfl

/-- **A difference that a float stands for is exact.** -/
theorem rational_sub (h : Representable (rational x - rational y)) :
    (x - y).isFinite = true ∧ rational (x - y) = rational x - rational y := by
  refine (packsTo_sub (packed_ofFloat hx) (packed_ofFloat hy)).rational_eq ?_ h
  rw [← unpack_toModel, ← unpack_toModel]
  rfl

/-- **A product that a float stands for is exact.** -/
theorem rational_mul (h : Representable (rational x * rational y)) :
    (x * y).isFinite = true ∧ rational (x * y) = rational x * rational y := by
  refine (packsTo_mul (packed_ofFloat hx) (packed_ofFloat hy)).rational_eq ?_ h
  rw [← unpack_toModel, ← unpack_toModel]
  rfl

end Rationals

/-! ### Integers -/

/-- An integer of at most 53 bits, and what is made of it by moving its bits down. -/
theorem representable_of_nonpos {i e : Int} (hi : i.natAbs < 2 ^ 53) (he : -1074 ≤ e)
    (he' : e ≤ 0) : Representable (i * 2 ^ e) := by
  have hlargest : dyadic 1 53 ≤ FloatFormat.binary64.largest.toRat := by decide +kernel
  refine ⟨i, e, rfl, hi, he, ?_⟩
  rw [← FloatValue.toRat_ofScaled, FloatValue.ofScaled, FloatValue.abs_toRat]
  calc dyadic i.natAbs e ≤ dyadic (2 ^ 53) e := (dyadic_le_iff e).mpr hi.le
    _ = dyadic 1 (e + 53) := dyadic_two_pow 53 e
    _ ≤ dyadic 1 53 := one_dyadic_le_iff.mpr (by omega)
    _ ≤ _ := hlargest

theorem representable_intCast {k : Int} (hk : k.natAbs < 2 ^ 53) : Representable k := by
  have h := representable_of_nonpos (e := 0) hk (by decide) le_rfl
  rwa [zpow_zero, mul_one] at h

/-- Rounding to an integer gives the nearest natural with the sign of the number. -/
theorem roundToInteger_same (tie : Tie) (negative : Bool) (s : Nat) (e : Int) :
    ((FloatValue.finite negative s e).roundToInteger tie).Same
      (.finite negative (tie.scale s e) 0) := by
  unfold FloatValue.roundToInteger Tie.scale
  dsimp only
  split_ifs with he
  · refine ⟨rfl, ?_⟩
    rw [dyadic_of_nonneg s he, dyadic_of_nonneg _ le_rfl, Int.toNat_zero, Nat.pow_zero,
      Nat.mul_one]
  · exact FloatValue.Same.refl _

/-- **A number is rounded to an integer within the same bounds.** -/
theorem rational_roundAway {x : Float} (hx : x.isFinite = true) {b : Nat} (hb : b < 2 ^ 53)
    (h : |rational x| ≤ b) :
    (roundAway x).isFinite = true ∧ ∃ k : Int, |k| ≤ b ∧ rational (roundAway x) = k := by
  obtain ⟨negative, s, e, hvalue⟩ := exists_finite hx
  have hsame := roundToInteger_same .awayFromZero negative s e
  have hle : Tie.awayFromZero.scale s e ≤ b := by
    rw [rational, hvalue, FloatValue.abs_toRat] at h
    have hself : Tie.awayFromZero.scale b 0 = b := by simp [Tie.scale]
    rw [← hself]
    refine Tie.awayFromZero.scale_mono ?_
    rwa [dyadic_of_nonneg b le_rfl, Int.toNat_zero, Nat.pow_zero, Nat.mul_one]
  generalize Tie.awayFromZero.scale s e = m at hsame hle
  obtain ⟨k, hk⟩ : ∃ k : Int, k = (FloatValue.signOf negative).apply m := ⟨_, rfl⟩
  have habs : k.natAbs = m := by
    rw [hk]
    cases negative
    · exact Int.natAbs_natCast m
    · exact (Int.natAbs_neg _).trans (Int.natAbs_natCast m)
  have hrat : ((FloatValue.finite negative s e).roundToInteger .awayFromZero).toRat = k := by
    rw [hsame.toRat_eq, FloatValue.toRat_finite, zpow_zero, mul_one, hk]
  have hround := round_same_of_representable (hsame.isFinite_eq.trans rfl)
    (hrat ▸ representable_intCast (habs ▸ hle.trans_lt hb))
  have hfloat : FloatValue.ofFloat (roundAway x) = FloatFormat.binary64.round
      ((FloatValue.finite negative s e).roundToInteger .awayFromZero) := by
    unfold roundAway
    rw [hvalue]
    exact ofFloat_toFloat (hsame.ne_nan FloatValue.noConfusion)
  rw [isFinite_eq, rational, hfloat, hround.isFinite_eq, hround.toRat_eq, hrat]
  refine ⟨hsame.isFinite_eq.trans rfl, k, ?_, rfl⟩
  rw [Int.abs_eq_natAbs, habs]
  exact_mod_cast hle

end FusedGemm
