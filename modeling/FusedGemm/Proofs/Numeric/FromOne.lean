import FusedGemm.Proofs.Numeric.Comparing
import FusedGemm.Proofs.Numeric.Quantizing

/-!
# Numbers from one on

A float is *from one on* if it has no sign and is one or more, possibly infinite (`FromOne`).  Sums,
squares and the quantized forms of such floats are from one on, and so the root of a sum of their
squares is positive.

Counting in an element type, by adding ones and quantizing each sum, stops at the `ceiling` of the
type, where the next one is rounded away (`ElementType.code_count_le`).  So it never comes near
infinity, however long it goes on.
-/

namespace FusedGemm

/-- The float has no sign and is one or more. -/
structure FromOne (x : Float) : Prop where
  unsigned : Unsigned x
  le : code 1 ≤ code x

theorem fromOne_one : FromOne 1 := ⟨parts_one.unsigned, le_rfl⟩

theorem bounded_one : Bounded 1 := by decide

theorem unsigned_ofNat (n : Nat) : Unsigned (Float.ofNat n) := by
  unfold Unsigned
  rw [code_ofNat]
  exact FloatFormat.binary64.clampMagnitude_le _

theorem code_ofNat_mono {m n : Nat} (h : m ≤ n) : code (Float.ofNat m) ≤ code (Float.ofNat n) := by
  rw [code_ofNat, code_ofNat]
  exact FloatFormat.binary64.encode_mono ((dyadic_le_iff 0).mpr h)

namespace FromOne

variable {x y : Float}

theorem add (hx : FromOne x) (hy : Unsigned y) : FromOne (x + y) :=
  ⟨hx.unsigned.add hy, hx.le.trans (hx.unsigned.le_add_right hy)⟩

theorem add_left (hx : FromOne x) (hy : Unsigned y) : FromOne (y + x) :=
  ⟨hy.add hx.unsigned, hx.le.trans (hx.unsigned.le_add_left hy)⟩

theorem mul_self (h : FromOne x) : FromOne (x * x) :=
  ⟨(one_le_code_mul_self h.unsigned h.le).1, (one_le_code_mul_self h.unsigned h.le).2⟩

theorem code_pos (h : FromOne x) : 0 < code x := Nat.lt_of_lt_of_le (by decide) h.le

theorem sqrt_pos (h : FromOne x) : 0.0 < x.sqrt := zero_lt_sqrt h.unsigned h.code_pos

theorem quantizePart (h : FromOne x) (t : ElementType) : FromOne (t.quantizePart x) := by
  refine ⟨t.unsigned_quantizePart h.unsigned, ?_⟩
  have hmono := t.code_quantizePart_mono h.unsigned h.le
  rwa [t.quantizePart_one] at hmono

end FromOne

/-! ### Sums -/

section Sums
variable {α : Type} {xs : List α}

/-- More terms keep a sum from one on. -/
theorem FromOne.foldl_add {f : α → Float} (h : ∀ x ∈ xs, FromOne (f x)) {s : Float}
    (hs : FromOne s) : FromOne (xs.foldl (fun s x => s + f x) s) := by
  induction xs generalizing s with
  | nil => exact hs
  | cons x xs ih =>
    have hx := h x List.mem_cons_self
    exact ih (fun y hy => h y (List.mem_cons_of_mem x hy)) (hs.add hx.unsigned)

/-- A sum is from one on if its terms are, whatever neutral element it starts from. -/
theorem FromOne.sum {f : α → Float} (h : ∀ x ∈ xs, FromOne (f x)) (hne : xs ≠ []) {s : Float}
    (hs : ∀ {y}, Unsigned y → s + y = y) : FromOne (xs.foldl (fun s x => s + f x) s) := by
  cases xs with
  | nil => exact absurd rfl hne
  | cons x xs =>
    have hx := h x List.mem_cons_self
    rw [List.foldl_cons, hs hx.unsigned]
    exact FromOne.foldl_add (fun y hy => h y (List.mem_cons_of_mem x hy)) hx

theorem ComplexFloat.re_foldl_add (f : α → ComplexFloat) (z : ComplexFloat) :
    (xs.foldl (fun s x => s + f x) z).re = xs.foldl (fun s x => s + (f x).re) z.re := by
  induction xs generalizing z with
  | nil => rfl
  | cons x xs ih => exact ih _

theorem ComplexFloat.im_foldl_add {f : α → ComplexFloat} (h : ∀ x ∈ xs, (f x).im = 0)
    {z : ComplexFloat} (hz : z.im = 0) : (xs.foldl (fun s x => s + f x) z).im = 0 := by
  induction xs generalizing z with
  | nil => exact hz
  | cons x xs ih =>
    refine ih (fun y hy => h y (List.mem_cons_of_mem x hy)) ?_
    show z.im + (f x).im = 0
    rw [hz, h x List.mem_cons_self]
    rfl

end Sums

/-! ### Elements -/

namespace ElementType

theorem quantize_ofReal (t : ElementType) {x : Float} (h : Unsigned x) :
    t.quantize (.ofReal x) = .ofReal (t.quantizePart x) := t.quantize_eq h fun _ => rfl

theorem quantize_one (t : ElementType) : t.quantize (.ofReal 1) = .ofReal 1 := by
  rw [t.quantize_ofReal parts_one.unsigned, quantizePart_one]

/-- What an element holds of a number from one on is a real number from one on. -/
theorem exists_quantize_eq (t : ElementType) {z : ComplexFloat} (h : FromOne z.re)
    (him : t.isComplex = true → z.im = 0) : ∃ x, FromOne x ∧ t.quantize z = .ofReal x :=
  ⟨_, h.quantizePart t, t.quantize_eq h.unsigned him⟩

/-! ### Counting -/

/-- The natural at which counting stops, as its successor is rounded back. -/
def ceiling : ElementType → Float
  | .f32 | .c32 => 16777216
  | .f16 => 2048
  | .bf16 => 256
  | .f8e4m3 => 16
  | .f8e5m2 => 8
  | .i8 => 127
  | .i32 => 2147483647

theorem quantizePart_ceiling_add_one (t : ElementType) :
    t.quantizePart (t.ceiling + 1) = t.ceiling := by cases t <;> decide +kernel

theorem bounded_ceiling (t : ElementType) : Bounded t.ceiling := by cases t <;> decide

/-- One more does not lead above the ceiling. -/
theorem code_count_le (t : ElementType) {x : Float} (h : code x ≤ code t.ceiling) :
    code (t.quantizePart (x + 1)) ≤ code t.ceiling := by
  have hceiling := t.bounded_ceiling.unsigned
  have hsum := code_add_le hceiling parts_one.unsigned h le_rfl
  have hmono := t.code_quantizePart_mono (hceiling.add parts_one.unsigned) hsum
  rwa [quantizePart_ceiling_add_one] at hmono

/-- A natural and one are a finite number in every type but the 16-bit one with five exponent bits,
where that holds of the naturals below 65519. -/
theorem bounded_quantizePart_succ (t : ElementType) {n : Nat} (h : n < 2 ^ 64)
    (hsmall : t = .f16 → n < 65519) : Bounded (t.quantizePart (1 + Float.ofNat n)) := by
  have hmono : ∀ bound, n ≤ bound →
      code (t.quantizePart (1 + Float.ofNat n)) ≤ code (t.quantizePart (1 + Float.ofNat bound)) := by
    intro bound hbound
    have hsum := code_add_le parts_one.unsigned (unsigned_ofNat bound) le_rfl
      (code_ofNat_mono hbound)
    exact t.code_quantizePart_mono (parts_one.unsigned.add (unsigned_ofNat bound)) hsum
  by_cases ht : t = .f16
  · have hbound := hmono 65518 (by have := hsmall ht; omega)
    have hdecide : Bounded (ElementType.f16.quantizePart (1 + Float.ofNat 65518)) := by
      decide +kernel
    rw [ht] at hbound ⊢
    exact hbound.trans hdecide
  · have hbound := hmono (2 ^ 64) h.le
    refine hbound.trans ?_
    show Bounded (t.quantizePart (1 + Float.ofNat (2 ^ 64)))
    cases t <;> first | exact absurd rfl ht | decide +kernel

end ElementType

end FusedGemm
