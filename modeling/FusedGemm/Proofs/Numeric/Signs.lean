import FusedGemm.Proofs.Numeric.Comparing

/-!
# Floats with signs

Floats whose codes differ in the sign bit only have one absolute value (`abs_congr`), which for a
finite float is finite too (`bounded_abs`).  The two differences of two floats are such floats
(`abs_sub_comm`), and the difference of finite floats is a number or infinite (`unsigned_abs_sub`).
Equality of floats is symmetric (`beq_comm`) and their order is that of what is not below
(`le_iff_not_lt`); for floats without a sign it is that of the codes (`le_iff_code_le`).
-/

namespace FusedGemm

open Float.Model Float.Model.UnpackedFloat

/-! ### Values without their sign -/

namespace FloatValue

/-- The value is a number. -/
def isFinite : FloatValue → Bool
  | .finite _ _ _ => true
  | _ => false

/-- The value without its sign. -/
def abs : FloatValue → FloatValue
  | .finite _ s e => .finite false s e
  | .infinite _ => .infinite false
  | .nan => .nan

theorem isFinite_toUnpacked (v : FloatValue) : v.toUnpacked.isFinite = v.isFinite := by
  cases v with
  | nan => rfl
  | infinite negative => rfl
  | finite negative s e =>
    rcases Nat.eq_zero_or_pos s with rfl | hpos
    · rfl
    · rw [toUnpacked_of_pos hpos]
      rfl

theorem toUnpacked_abs (v : FloatValue) : v.abs.toUnpacked = v.toUnpacked.abs := by
  cases v with
  | nan => rfl
  | infinite negative => rfl
  | finite negative s e =>
    rcases Nat.eq_zero_or_pos s with rfl | hpos
    · rfl
    · rw [toUnpacked_of_pos hpos, abs, toUnpacked_of_pos hpos]
      rfl

end FloatValue

namespace FloatFormat

variable (format : FloatFormat)

theorem abs_magnitudeValue (negative : Bool) (n : Nat) :
    (format.magnitudeValue negative n).abs = format.magnitudeValue false n := by
  unfold magnitudeValue
  dsimp only
  split_ifs <;> rfl

/-- The code without the sign bit stands for the value without its sign. -/
theorem decode_mod (code : Nat) :
    format.decode (code % format.signWeight) = (format.decode code).abs := by
  have hpos : 0 < format.signWeight := Nat.two_pow_pos _
  unfold decode
  dsimp only
  rw [Nat.mod_mod, Nat.div_eq_of_lt (Nat.mod_lt _ hpos)]
  split_ifs
  · exact (format.abs_magnitudeValue _ _).symm
  · rfl
  · rfl

end FloatFormat

/-! ### Absolute values -/

section Abs
variable {x y : Float}

theorem unpack_toModel (x : Float) : x.toModel.unpack = (FloatValue.ofFloat x).toUnpacked :=
  unpack_eq _

/-- A float is finite if it stands for a number. -/
theorem isFinite_eq (x : Float) : x.isFinite = (FloatValue.ofFloat x).isFinite := by
  rw [← FloatValue.isFinite_toUnpacked, ← unpack_toModel]
  rfl

theorem code_abs (x : Float) : code x.abs = (UnpackedFloat.pack Format.binary64
    (FloatFormat.binary64.decode (code x % 2 ^ 63)).toUnpacked).toNat := by
  have hvalue : FloatFormat.binary64.decode (code x % 2 ^ 63) = (FloatValue.ofFloat x).abs :=
    FloatFormat.binary64.decode_mod (code x)
  rw [hvalue, FloatValue.toUnpacked_abs, ← unpack_toModel]
  rfl

/-- Floats that differ in the sign bit only have the same absolute value. -/
theorem abs_congr (h : code x % 2 ^ 63 = code y % 2 ^ 63) : x.abs = y.abs := by
  apply code_inj
  rw [code_abs, code_abs, h]

theorem code_abs_of_le (h : code x % 2 ^ 63 ≤ FloatFormat.binary64.infinityCode) :
    code x.abs = code x % 2 ^ 63 := by
  rw [code_abs, toUnpacked_decode_of_le h, toNat_pack_unpacked h]

/-- The absolute value of a finite float is finite and has no sign. -/
theorem bounded_abs (h : x.isFinite = true) : Bounded x.abs := by
  have hmax : FloatFormat.binary64.maxCode ≤ FloatFormat.binary64.infinityCode :=
    FloatFormat.binary64.maxCode_le_overflowCode
  have hle : code x % 2 ^ 63 ≤ FloatFormat.binary64.maxCode := by
    rw [isFinite_eq] at h
    by_contra hlarge
    have hvalue : FloatValue.ofFloat x =
        if code x % 2 ^ 63 == FloatFormat.binary64.infinityCode then
          .infinite (code x / 2 ^ 63 % 2 == 1) else .nan :=
      if_neg hlarge
    rw [hvalue] at h
    split_ifs at h <;> cases h
  unfold Bounded
  rwa [code_abs_of_le (hle.trans hmax)]

end Abs

/-! ### Differences -/

/-- Packing puts the sign into the sign bit. -/
theorem toNat_pack_neg (u : UnpackedFloat) :
    (UnpackedFloat.pack Format.binary64 u.neg).toNat % 2 ^ 63 =
      (UnpackedFloat.pack Format.binary64 u).toNat % 2 ^ 63 := by
  have hcomponents : ∀ (s s' : Sign) (e : BitVec 11) (m : BitVec 52),
      (packComponents Format.binary64 s e m).toNat % 2 ^ 63 =
        (packComponents Format.binary64 s' e m).toNat % 2 ^ 63 := by
    intro s s' e m
    rw [toNat_packComponents, toNat_packComponents]
    omega
  cases u with
  | notANumber => rfl
  | infinity s => exact hcomponents _ _ _ _
  | zero s => exact hcomponents _ _ _ _
  | finite s m e hm =>
    show (UnpackedFloat.pack Format.binary64 (.finite (-s) m e hm)).toNat % 2 ^ 63 = _
    rw [pack_finite, pack_finite]
    split_ifs <;> exact hcomponents _ _ _ _

/-- What is no NaN is packed to infinity at most, without its sign bit. -/
theorem toNat_pack_le {u : UnpackedFloat} (h : u ≠ .notANumber) :
    (UnpackedFloat.pack Format.binary64 u).toNat % 2 ^ 63 ≤ FloatFormat.binary64.infinityCode := by
  have hinfinity : FloatFormat.binary64.infinityCode = 2047 * 2 ^ 52 := rfl
  have hcomponents : ∀ (s : Sign) (e : BitVec 11) (m : BitVec 52),
      e.toNat < 2047 ∨ e.toNat = 2047 ∧ m.toNat = 0 →
      (packComponents Format.binary64 s e m).toNat % 2 ^ 63 ≤ 2047 * 2 ^ 52 := by
    intro s e m he
    rw [toNat_packComponents]
    omega
  rw [hinfinity]
  cases u with
  | notANumber => exact absurd rfl h
  | infinity s => exact hcomponents s _ _ (Or.inr ⟨rfl, rfl⟩)
  | zero s => exact hcomponents s _ _ (Or.inl (by decide))
  | finite s m e hm =>
    rw [pack_finite]
    split_ifs with hexponent
    · exact hcomponents s _ _ (Or.inr ⟨rfl, rfl⟩)
    · refine hcomponents s _ _ (Or.inl ?_)
      rw [BitVec.toNat_ofNat]
      exact (Nat.mod_le _ _).trans_lt (Nat.lt_of_succ_lt_succ (Nat.lt_of_not_le hexponent))
    · exact hcomponents s _ _ (Or.inl (by decide))

/-- Rounding does not look at the sign. -/
theorem exists_round_eq (m : Nat) (e : Int) : ∃ (r : Nat) (t : Int), ∀ s : Sign,
    UnpackedFloat.round Format.binary64 s m e =
      if h : r = 0 then .zero s else .finite s r t (Nat.pos_of_ne_zero h) :=
  ⟨_, _, fun _ => rfl⟩

theorem round_neg (m : Nat) (e : Int) :
    UnpackedFloat.round Format.binary64 .negative m e =
      (UnpackedFloat.round Format.binary64 .positive m e).neg := by
  obtain ⟨r, t, hround⟩ := exists_round_eq m e
  rw [hround, hround]
  by_cases hr : r = 0
  · rw [dif_pos hr, dif_pos hr]
    rfl
  · rw [dif_neg hr, dif_neg hr]
    rfl

/-- An integer is rounded as its absolute value is, with its sign. -/
theorem normalize_cases (m e : Int) (s : Sign) :
    UnpackedFloat.normalize Format.binary64 m e s =
      if m < 0 then UnpackedFloat.round Format.binary64 .negative (-m).toNat e
      else if m = 0 then .zero s
      else UnpackedFloat.round Format.binary64 .positive m.toNat e := by
  unfold UnpackedFloat.normalize
  rcases lt_trichotomy m 0 with h | rfl | h
  · rw [Int.compare_eq_lt.mpr h, if_pos h]
  · rfl
  · rw [Int.compare_eq_gt.mpr h, if_neg h.not_gt, if_neg h.ne']

theorem normalize_neg (m e : Int) (s : Sign) :
    (UnpackedFloat.pack Format.binary64
        (UnpackedFloat.normalize Format.binary64 (-m) e s)).toNat % 2 ^ 63 =
      (UnpackedFloat.pack Format.binary64
        (UnpackedFloat.normalize Format.binary64 m e s)).toNat % 2 ^ 63 := by
  rw [normalize_cases, normalize_cases]
  rcases lt_trichotomy m 0 with h | rfl | h
  · rw [if_neg (by omega), if_neg (by omega), if_pos h, round_neg, toNat_pack_neg]
  · rfl
  · rw [if_pos (by omega), if_neg h.not_gt, if_neg h.ne', Int.neg_neg, round_neg, toNat_pack_neg]

/-- Finite numbers are subtracted at the smaller exponent. -/
theorem sub_finite (s s' : Sign) (m m' : Nat) (e e' : Int) (hm : 0 < m) (hm' : 0 < m') :
    UnpackedFloat.sub Format.binary64 (.finite s m e hm) (.finite s' m' e' hm') =
      UnpackedFloat.normalize Format.binary64
        (s.apply (decreaseExponent m e (min e e')).1 -
          s'.apply (decreaseExponent m' e' (min e e')).1) (min e e') .positive :=
  rfl

/-- The two differences differ in their sign at most. -/
theorem toNat_pack_sub_comm (u v : UnpackedFloat) :
    (UnpackedFloat.pack Format.binary64 (UnpackedFloat.sub Format.binary64 u v)).toNat % 2 ^ 63 =
      (UnpackedFloat.pack Format.binary64 (UnpackedFloat.sub Format.binary64 v u)).toNat %
        2 ^ 63 := by
  cases u with
  | notANumber => cases v <;> rfl
  | infinity s =>
    cases v with
    | notANumber => rfl
    | infinity s' => cases s <;> cases s' <;> rfl
    | zero s' => exact (toNat_pack_neg (.infinity s)).symm
    | finite s' m' e' hm' => exact (toNat_pack_neg (.infinity s)).symm
  | zero s =>
    cases v with
    | notANumber => rfl
    | infinity s' => exact toNat_pack_neg (.infinity s')
    | zero s' => cases s <;> cases s' <;> rfl
    | finite s' m' e' hm' => exact toNat_pack_neg (.finite s' m' e' hm')
  | finite s m e hm =>
    cases v with
    | notANumber => rfl
    | infinity s' => exact toNat_pack_neg (.infinity s')
    | zero s' => exact (toNat_pack_neg (.finite s m e hm)).symm
    | finite s' m' e' hm' =>
      rw [sub_finite, sub_finite, Int.min_comm e' e, ← Int.neg_sub, normalize_neg]

/-- **The two differences have the same absolute value.** -/
theorem abs_sub_comm (x y : Float) : (x - y).abs = (y - x).abs :=
  abs_congr (toNat_pack_sub_comm _ _)

theorem round_ne_notANumber (s : Sign) (m : Nat) (e : Int) :
    UnpackedFloat.round Format.binary64 s m e ≠ .notANumber := by
  obtain ⟨r, t, hround⟩ := exists_round_eq m e
  rw [hround]
  by_cases hr : r = 0
  · rw [dif_pos hr]
    exact UnpackedFloat.noConfusion
  · rw [dif_neg hr]
    exact UnpackedFloat.noConfusion

theorem sub_ne_notANumber {u v : UnpackedFloat} (hu : u.isFinite = true) (hv : v.isFinite = true) :
    UnpackedFloat.sub Format.binary64 u v ≠ .notANumber := by
  cases u with
  | notANumber => cases hu
  | infinity s => cases hu
  | zero s =>
    cases v with
    | notANumber => cases hv
    | infinity s' => cases hv
    | zero s' => cases s <;> cases s' <;> exact UnpackedFloat.noConfusion
    | finite s' m' e' hm' => exact UnpackedFloat.noConfusion
  | finite s m e hm =>
    cases v with
    | notANumber => cases hv
    | infinity s' => cases hv
    | zero s' => exact UnpackedFloat.noConfusion
    | finite s' m' e' hm' =>
      rw [sub_finite, normalize_cases]
      split_ifs
      · exact round_ne_notANumber _ _ _
      · exact UnpackedFloat.noConfusion
      · exact round_ne_notANumber _ _ _

/-- The difference of finite floats is a number or infinite. -/
theorem unsigned_abs_sub {x y : Float} (hx : x.isFinite = true) (hy : y.isFinite = true) :
    Unsigned (x - y).abs := by
  have hle : code (x - y) % 2 ^ 63 ≤ FloatFormat.binary64.infinityCode :=
    toNat_pack_le (sub_ne_notANumber hx hy)
  unfold Unsigned
  rwa [code_abs_of_le hle]

/-! ### Equality and order -/

section Order
variable {x y : Float}

/-- Comparing the other way around. -/
theorem compare_swap (u v : UnpackedFloat) : v.compare u = (u.compare v).map Ordering.swap := by
  have hsign : ∀ s s' : Sign, compare s' s = (compare s s').swap := by
    intro s s'
    cases s <;> cases s' <;> rfl
  cases u with
  | notANumber => cases v <;> rfl
  | infinity s =>
    cases v with
    | notANumber => rfl
    | infinity s' => exact congrArg some (hsign s s')
    | zero s' => cases s <;> rfl
    | finite s' m' e' hm' => cases s <;> rfl
  | zero s =>
    cases v with
    | notANumber => rfl
    | infinity s' => cases s' <;> rfl
    | zero s' => rfl
    | finite s' m' e' hm' => cases s' <;> rfl
  | finite s m e hm =>
    cases v with
    | notANumber => cases s <;> rfl
    | infinity s' => cases s <;> cases s' <;> rfl
    | zero s' => cases s <;> rfl
    | finite s' m' e' hm' =>
      have hparts : (compare e' e).then (compare m' m) =
          ((compare e e').then (compare m m')).swap := by
        rw [Ordering.swap_then, Int.compare_swap, Nat.compare_swap]
      cases s <;> cases s'
      · exact congrArg (fun o => some (Ordering.swap o)) hparts
      · rfl
      · rfl
      · exact congrArg some hparts

/-- Floats are equal either way. -/
theorem beq_comm (x y : Float) : (x == y) = (y == x) := by
  show (x.toModel.unpack.compare y.toModel.unpack == some .eq) =
    (y.toModel.unpack.compare x.toModel.unpack == some .eq)
  rw [compare_swap]
  rcases y.toModel.unpack.compare x.toModel.unpack with _ | _ | _ | _ <;> rfl

theorem le_iff_unpacked : x ≤ y ↔ UnpackedFloat.le x.toModel.unpack y.toModel.unpack = true := by
  show decide (UnpackedFloat.le _ _ = true) = true ↔ _
  exact decide_eq_true_iff

/-- Floats that can be compared are in order if the second one is not below. -/
theorem le_iff_not_lt (h : x.toModel.unpack.compare y.toModel.unpack ≠ none) :
    x ≤ y ↔ ¬ y < x := by
  rw [le_iff_unpacked, lt_iff_unpacked]
  unfold UnpackedFloat.le UnpackedFloat.lt
  rw [compare_swap x.toModel.unpack]
  rcases hcompare : x.toModel.unpack.compare y.toModel.unpack with _ | _ | _ | _
  · exact absurd hcompare h
  all_goals decide

/-- **Unsigned floats are in the order of their codes.** -/
theorem le_iff_code_le (hx : Unsigned x) (hy : Unsigned y) : x ≤ y ↔ code x ≤ code y := by
  rw [le_iff_not_lt, lt_iff_code_lt hy hx, Nat.not_lt]
  rcases hx.unpack_cases with hu | hu | ⟨s, e, hs, hu⟩ <;>
    rcases hy.unpack_cases with hv | hv | ⟨s', e', hs', hv⟩ <;> rw [hu, hv] <;> nofun

end Order

end FusedGemm
