import FusedGemm.Proofs.Numeric.Requantizing

/-!
# Sums of squares

A float is squared as its absolute value is (`mul_self_eq`), so the square of what is no NaN has no
sign.  The parts of elements are zero or at least `2 ^ (-149)` away from it, and the square of that
is still a number of the compute format: only zero has a square of zero
(`ElementType.code_mul_self_pos`).  So the squared absolute values of elements are sums without
signs, which are zero where both parts are (`ElementType.code_normSquared_eq_zero_iff`), and their
sum is zero where all of them are (`code_sum_eq_zero_iff`).  NaN goes through squares and sums.
-/

namespace FusedGemm

open Float.Model Float.Model.UnpackedFloat

/-! ### NaN -/

section NaN
variable {x y : Float}

theorem isNaN_iff_unpacked : x.isNaN = true ↔ x.toModel.unpack = .notANumber := by
  show x.toModel.unpack.isNaN = true ↔ _
  cases x.toModel.unpack with
  | notANumber => exact iff_of_true rfl rfl
  | infinity s => exact iff_of_false Bool.false_ne_true UnpackedFloat.noConfusion
  | zero s => exact iff_of_false Bool.false_ne_true UnpackedFloat.noConfusion
  | finite s m e hm => exact iff_of_false Bool.false_ne_true UnpackedFloat.noConfusion

/-- What is packed from no number is no number. -/
theorem isNaN_of_packed {u : UnpackedFloat} (h : u = .notANumber)
    (hx : x.toModel.unpack =
      UnpackedFloat.unpack Format.binary64 (UnpackedFloat.pack Format.binary64 u)) :
    x.isNaN = true := by
  rw [isNaN_iff_unpacked, hx, h]
  rfl

theorem isNaN_add_left (h : x.isNaN = true) (y : Float) : (x + y).isNaN = true := by
  rw [isNaN_iff_unpacked] at h
  refine isNaN_of_packed (u := UnpackedFloat.add _ x.toModel.unpack y.toModel.unpack) ?_ rfl
  rw [h]
  rfl

theorem isNaN_add_right (x : Float) (h : y.isNaN = true) : (x + y).isNaN = true := by
  rw [isNaN_iff_unpacked] at h
  refine isNaN_of_packed (u := UnpackedFloat.add _ x.toModel.unpack y.toModel.unpack) ?_ rfl
  rw [h]
  cases x.toModel.unpack <;> rfl

theorem isNaN_mul_self (h : x.isNaN = true) : (x * x).isNaN = true := by
  rw [isNaN_iff_unpacked] at h
  refine isNaN_of_packed (u := UnpackedFloat.mul _ x.toModel.unpack x.toModel.unpack) ?_ rfl
  rw [h]
  rfl

theorem isNaN_sqrt (h : x.isNaN = true) : x.sqrt.isNaN = true := by
  rw [isNaN_iff_unpacked] at h
  refine isNaN_of_packed (u := UnpackedFloat.sqrt _ x.toModel.unpack) ?_ rfl
  rw [h]
  rfl

/-- NaN is above nothing. -/
theorem not_lt_of_isNaN (x : Float) (h : y.isNaN = true) : ¬ x < y := by
  rw [isNaN_iff_unpacked] at h
  rw [lt_iff_unpacked, h]
  cases x.toModel.unpack <;> exact Bool.false_ne_true

end NaN

/-! ### Squares -/

/-- A sum without signs is zero where both summands are. -/
theorem code_add_eq_zero_iff {x y : Float} (hx : Unsigned x) (hy : Unsigned y) :
    code (x + y) = 0 ↔ code x = 0 ∧ code y = 0 := by
  constructor
  · intro h
    have hleft := hx.le_add_right hy
    have hright := hy.le_add_left hx
    omega
  · rintro ⟨hzero, hzero'⟩
    have hcode : code 0 = 0 := by decide
    rw [code_inj (hzero.trans hcode.symm), code_inj (hzero'.trans hcode.symm)]
    decide

section Squares
variable {x : Float}

/-- What a float without its sign stands for. -/
theorem ofFloat_abs (h : x.isNaN = false) :
    FloatValue.ofFloat x.abs = (FloatValue.ofFloat x).abs := by
  have hle := FloatFormat.binary64.mod_le_overflowCode (ofFloat_ne_nan h)
  show FloatFormat.binary64.decode (code x.abs) = _
  rw [code_abs_of_le hle]
  exact FloatFormat.binary64.decode_mod (code x)

theorem unsigned_abs (h : x.isNaN = false) : Unsigned x.abs := by
  have hle := FloatFormat.binary64.mod_le_overflowCode (ofFloat_ne_nan h)
  unfold Unsigned
  rwa [code_abs_of_le hle]

/-- **The square of a number is that of its absolute value.** -/
theorem mul_self_eq (h : x.isNaN = false) : x * x = x.abs * x.abs := by
  have hunpack : x.abs.toModel.unpack = x.toModel.unpack.abs := by
    rw [unpack_toModel, ofFloat_abs h, FloatValue.toUnpacked_abs, ← unpack_toModel]
  apply code_inj
  rw [code_mul_unpacked, code_mul_unpacked, hunpack]
  cases x.toModel.unpack with
  | notANumber => rfl
  | infinity s => cases s <;> rfl
  | zero s => cases s <;> rfl
  | finite s m e hm => cases s <;> rfl

theorem Unsigned.mul_self (h : Unsigned x) : Unsigned (x * x) := by
  rcases h.bounded_or_eq with hbounded | rfl
  · obtain ⟨s, e, hx⟩ := hbounded.exists_parts
    unfold Unsigned
    rw [hx.code_mul hx]
    exact FloatFormat.binary64.clampMagnitude_le _
  · decide

theorem unsigned_mul_self (h : x.isNaN = false) : Unsigned (x * x) := by
  rw [mul_self_eq h]
  exact (unsigned_abs h).mul_self

/-- A float equals zero if it is unpacked to a zero. -/
theorem beq_zero_iff : (x == 0) = true ↔ ∃ s, x.toModel.unpack = .zero s := by
  have hzero : (0 : Float).toModel.unpack = .zero .positive := rfl
  show (x.toModel.unpack.compare (0 : Float).toModel.unpack == some .eq) = true ↔ _
  rw [hzero]
  cases x.toModel.unpack with
  | notANumber => exact iff_of_false Bool.false_ne_true fun ⟨_, h⟩ => UnpackedFloat.noConfusion h
  | infinity s =>
    cases s <;> exact iff_of_false Bool.false_ne_true fun ⟨_, h⟩ => UnpackedFloat.noConfusion h
  | zero s => exact iff_of_true rfl ⟨s, rfl⟩
  | finite s m e hm =>
    cases s <;> exact iff_of_false Bool.false_ne_true fun ⟨_, h⟩ => UnpackedFloat.noConfusion h

/-- A zero has a square of zero. -/
theorem code_mul_self_of_zero (h : (x == 0) = true) : code (x * x) = 0 := by
  obtain ⟨s, hs⟩ := beq_zero_iff.mp h
  rw [code_mul_unpacked, hs]
  cases s <;> rfl

/-- What stands for zero equals zero. -/
theorem beq_zero_of_same {negative : Bool} {e : Int}
    (h : (FloatValue.ofFloat x).Same (.finite negative 0 e)) : (x == 0) = true := by
  rcases hvalue : FloatValue.ofFloat x with _ | negative' | ⟨negative', s, e'⟩ <;>
    rw [hvalue] at h
  · exact h.elim
  · exact h.elim
  have hs : s = 0 := by
    by_contra hne
    have hpos := dyadic_pos (Nat.pos_of_ne_zero hne) e'
    rw [h.2, zero_dyadic] at hpos
    exact lt_irrefl _ hpos
  rw [beq_zero_iff, unpack_toModel, hvalue, hs]
  exact ⟨_, rfl⟩

theorem code_mul_self_of_infinite {negative : Bool}
    (h : (FloatValue.ofFloat x).Same (.infinite negative)) : 0 < code (x * x) := by
  rcases hvalue : FloatValue.ofFloat x with _ | negative' | ⟨negative', s, e⟩ <;>
    rw [hvalue] at h
  · exact h.elim
  · rw [code_mul_unpacked, unpack_toModel, hvalue]
    cases negative' <;> decide
  · exact h.elim

/-- The square of what is `2 ^ (-149)` away from zero is not rounded to zero. -/
theorem code_mul_self_pos_of_le {negative : Bool} {s : Nat} {e : Int}
    (hx : (FloatValue.ofFloat x).Same (.finite negative s e))
    (hle : dyadic 1 (-149) ≤ dyadic s e) : 0 < code (x * x) := by
  rcases hvalue : FloatValue.ofFloat x with _ | negative' | ⟨negative', s', e'⟩ <;>
    rw [hvalue] at hx
  · exact hx.elim
  · exact hx.elim
  have hnan : x.isNaN = false := by
    rw [Bool.eq_false_iff, ne_eq, ← ofFloat_eq_nan_iff, hvalue]
    exact FloatValue.noConfusion
  have hfinite : x.isFinite = true := by
    rw [isFinite_eq, hvalue]
    rfl
  obtain ⟨m, q, hparts⟩ := (bounded_abs hfinite).exists_parts
  have habs := hparts.value_eq
  rw [ofFloat_abs hnan, hvalue] at habs
  obtain ⟨-, rfl, rfl⟩ := FloatValue.finite.inj habs
  have hsquare : dyadic 1 (-298) ≤ dyadic (s' * s') (e' + e') := by
    have hpos := (dyadic_pos Nat.one_pos (-149)).le
    rw [show (-298 : Int) = -149 + -149 from rfl, ← Nat.one_mul 1, dyadic_mul, dyadic_mul, hx.2]
    exact mul_le_mul hle hle hpos (hpos.trans hle)
  rw [mul_self_eq hnan, hparts.code_mul hparts]
  have hbelow : (FloatValue.finite false 1 (-298)).Below (.finite false (s' * s') (e' + e')) :=
    hsquare
  refine Nat.lt_of_lt_of_le ?_ (FloatFormat.binary64.encode_mono hbelow)
  decide

end Squares

/-! ### Elements -/

namespace ComplexFloat

/-- Both parts equal zero. -/
def Vanishes (z : ComplexFloat) : Prop := (z.re == 0) = true ∧ (z.im == 0) = true

instance (z : ComplexFloat) : Decidable z.Vanishes := inferInstanceAs (Decidable (_ ∧ _))

variable {z : ComplexFloat}

/-- The squared absolute value of a number has no sign. -/
theorem NoNaN.unsigned_normSquared (h : z.NoNaN) : Unsigned z.normSquared :=
  (unsigned_mul_self h.1).add (unsigned_mul_self h.2)

theorem isNaN_normSquared (h : ¬ z.NoNaN) : z.normSquared.isNaN = true := by
  rw [NoNaN, not_and_or, Bool.not_eq_false, Bool.not_eq_false] at h
  rcases h with hre | him
  · exact isNaN_add_left (isNaN_mul_self hre) _
  · exact isNaN_add_right _ (isNaN_mul_self him)

end ComplexFloat

namespace ElementType

open FloatFormat FloatValue

variable {t : ElementType} {n : Nat}

/-- The numbers of a type other than zero are at least `2 ^ (-149)` away from it. -/
theorem one_dyadic_le_of_decodePart_eq {negative : Bool} {s : Nat} {e : Int}
    (h : t.decodePart n = .finite negative s e) (hs : s ≠ 0) : dyadic 1 (-149) ≤ dyadic s e := by
  have hexponent : -149 ≤ e := by
    cases ht : t.encoding with
    | float format =>
      have hmin : -149 ≤ format.minQuantum := by cases t <;> cases ht <;> decide
      rw [decodePart_of_float ht] at h
      exact hmin.trans (parts_of_decode_eq h).2.1
    | integer =>
      rw [decodePart_eq_ofInt ht] at h
      obtain ⟨-, -, rfl⟩ := FloatValue.finite.inj h
      decide
  have hleast := one_dyadic_le_iff.mpr hexponent
  exact hleast.trans ((dyadic_le_iff e).mpr (Nat.pos_of_ne_zero hs))

/-- **Only zero has a square of zero** among the parts of elements. -/
theorem code_mul_self_eq_zero_iff {x : Float} (hx : x = (t.decodePart n).toFloat)
    (hnan : x.isNaN = false) : code (x * x) = 0 ↔ (x == 0) = true := by
  refine ⟨fun hcode => ?_, code_mul_self_of_zero⟩
  have hsame : (ofFloat x).Same (t.decodePart n) := by
    rw [hx] at hnan ⊢
    exact ofFloat_decodePart (isNaN_toFloat_eq_false_iff.mp hnan)
  rcases hvalue : t.decodePart n with _ | negative | ⟨negative, s, e⟩ <;> rw [hvalue] at hsame
  · exact absurd hvalue (isNaN_toFloat_eq_false_iff.mp (hx ▸ hnan))
  · exact absurd hcode (code_mul_self_of_infinite hsame).ne'
  · rcases Nat.eq_zero_or_pos s with rfl | hpos
    · exact beq_zero_of_same hsame
    · have hleast := one_dyadic_le_of_decodePart_eq hvalue hpos.ne'
      exact absurd hcode (code_mul_self_pos_of_le hsame hleast).ne'

/-- Both parts of an element are numbers of its type, as a real type has zero. -/
theorem exists_decode_eq_parts (t : ElementType) (c : Code t) :
    ∃ m n, t.decode c = ⟨(t.decodePart m).toFloat, (t.decodePart n).toFloat⟩ := by
  have hzero : (t.decodePart 0).toFloat = 0 := by cases t <;> decide
  cases hcomplex : t.isComplex with
  | false =>
    refine ⟨c.toNat, 0, ?_⟩
    unfold decode
    rw [hcomplex, if_neg Bool.false_ne_true, hzero]
    rfl
  | true =>
    exact ⟨c.toNat % 2 ^ t.partBits, c.toNat / 2 ^ t.partBits, if_pos hcomplex⟩

/-- **The squared absolute value of an element is zero where both parts are.** -/
theorem code_normSquared_eq_zero_iff (t : ElementType) {c : Code t} (h : (t.decode c).NoNaN) :
    code (t.decode c).normSquared = 0 ↔ (t.decode c).Vanishes := by
  obtain ⟨m, n, hparts⟩ := t.exists_decode_eq_parts c
  have hre : (t.decode c).re = (t.decodePart m).toFloat := congrArg ComplexFloat.re hparts
  have him : (t.decode c).im = (t.decodePart n).toFloat := congrArg ComplexFloat.im hparts
  unfold ComplexFloat.normSquared ComplexFloat.Vanishes
  rw [code_add_eq_zero_iff (unsigned_mul_self h.1) (unsigned_mul_self h.2),
    code_mul_self_eq_zero_iff hre h.1, code_mul_self_eq_zero_iff him h.2]

end ElementType

/-! ### Sums -/

section Sums
variable {α : Type} {xs : List α} {f : α → Float} {s : Float}

/-- A sum of what has no sign has none, and it is zero where all of it is. -/
theorem unsigned_foldl_add (h : ∀ x ∈ xs, Unsigned (f x)) (hs : Unsigned s) :
    Unsigned (xs.foldl (fun s x => s + f x) s) ∧
      (code (xs.foldl (fun s x => s + f x) s) = 0 ↔ code s = 0 ∧ ∀ x ∈ xs, code (f x) = 0) := by
  induction xs generalizing s with
  | nil => exact ⟨hs, by simp⟩
  | cons x xs ih =>
    have hx := h x List.mem_cons_self
    obtain ⟨hsum, hzero⟩ := ih (fun y hy => h y (List.mem_cons_of_mem x hy)) (hs.add hx)
    refine ⟨hsum, ?_⟩
    rw [List.foldl_cons, hzero, code_add_eq_zero_iff hs hx, List.forall_mem_cons, and_assoc]

/-- A sum that has a NaN in it is NaN. -/
theorem isNaN_foldl_add (h : s.isNaN = true ∨ ∃ x ∈ xs, (f x).isNaN = true) :
    (xs.foldl (fun s x => s + f x) s).isNaN = true := by
  induction xs generalizing s with
  | nil => simpa using h
  | cons x xs ih =>
    refine ih ?_
    rcases h with hs | ⟨y, hy, hnan⟩
    · exact Or.inl (isNaN_add_left hs _)
    · rcases List.mem_cons.mp hy with rfl | hy
      · exact Or.inl (isNaN_add_right _ hnan)
      · exact Or.inr ⟨y, hy, hnan⟩

theorem Unsigned.zero_lt_sqrt_iff {x : Float} (h : Unsigned x) : 0.0 < x.sqrt ↔ code x ≠ 0 := by
  refine ⟨fun hlt hcode => ?_, fun hne => zero_lt_sqrt h (Nat.pos_of_ne_zero hne)⟩
  have hzero : x = 0 := code_inj (hcode.trans (by decide))
  rw [hzero] at hlt
  exact absurd hlt (by decide)

/-- **The root of a sum is positive if one of its terms is.**  The sum starts from minus zero, which
is the root of no terms at all. -/
theorem zero_lt_sqrt_sum_iff (h : ∀ x ∈ xs, Unsigned (f x)) :
    0.0 < (xs.foldl (fun s x => s + f x) (-0.0)).sqrt ↔ ∃ x ∈ xs, code (f x) ≠ 0 := by
  cases xs with
  | nil => exact iff_of_false (show ¬ 0.0 < (-0.0 : Float).sqrt by decide) (by simp)
  | cons x xs =>
    have hx := h x List.mem_cons_self
    obtain ⟨hsum, hzero⟩ := unsigned_foldl_add (fun y hy => h y (List.mem_cons_of_mem x hy)) hx
    rw [List.foldl_cons, hx.neg_zero_add, hsum.zero_lt_sqrt_iff, ne_eq, hzero,
      ← List.forall_mem_cons (p := fun y => code (f y) = 0)]
    simp only [not_forall, exists_prop, ne_eq]

end Sums

end FusedGemm
