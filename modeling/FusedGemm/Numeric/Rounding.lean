import FusedGemm.Numeric.Power

/-!
# Rounding a quotient to the nearest natural

`Tie.roundDiv tie n d` is the natural nearest to `n / d`, an exact half going where `tie` says, and
`Tie.scale tie s k` is the natural nearest to `s * 2 ^ k`.  The small lemmas say that the result is
at most half a unit away (`two_mul_roundDiv_le`, `le_two_mul_roundDiv`) and that a quotient without
remainder is kept (`roundDiv_mul`).
-/

namespace FusedGemm

/-- Where an exact half goes: to the even neighbour or to the larger one. -/
inductive Tie where
  | toEven
  | awayFromZero
  deriving DecidableEq

namespace Tie

/-- The neighbour that an exact half above `q` goes to. -/
def resolve : Tie → Nat → Nat
  | .toEven, q => q + q % 2
  | .awayFromZero, q => q + 1

/-- The quotient `n / d` rounded to the nearest natural. -/
def roundDiv (tie : Tie) (n d : Nat) : Nat :=
  if 2 * (n % d) < d then n / d
  else if d < 2 * (n % d) then n / d + 1
  else tie.resolve (n / d)

/-- The product `s * 2 ^ k` rounded to the nearest natural. -/
def scale (tie : Tie) (s : Nat) (k : Int) : Nat :=
  if 0 ≤ k then s * 2 ^ k.toNat else tie.roundDiv s (2 ^ (-k).toNat)

theorem resolve_le (tie : Tie) (q : Nat) : tie.resolve q ≤ q + 1 := by
  cases tie <;> simp only [resolve] <;> omega

theorem le_resolve (tie : Tie) (q : Nat) : q ≤ tie.resolve q := by
  cases tie <;> simp only [resolve] <;> omega

/-- Rounding goes up by at most half a unit. -/
theorem two_mul_roundDiv_le (tie : Tie) (n d : Nat) :
    2 * (tie.roundDiv n d * d) ≤ 2 * n + d := by
  have hn := Nat.div_add_mod n d
  have hm : n / d * d = d * (n / d) := Nat.mul_comm _ _
  unfold roundDiv
  split
  · omega
  · split
    · rw [Nat.add_mul]; omega
    · have hr := Nat.mul_le_mul_right d (resolve_le tie (n / d))
      rw [Nat.add_mul] at hr
      omega

/-- Rounding goes down by at most half a unit. -/
theorem le_two_mul_roundDiv (tie : Tie) (n : Nat) {d : Nat} (hd : 0 < d) :
    2 * n ≤ 2 * (tie.roundDiv n d * d) + d := by
  have hn := Nat.div_add_mod n d
  have hm : n / d * d = d * (n / d) := Nat.mul_comm _ _
  have hlt := Nat.mod_lt n hd
  unfold roundDiv
  split
  · omega
  · split
    · rw [Nat.add_mul]; omega
    · have hr := Nat.mul_le_mul_right d (le_resolve tie (n / d))
      omega

/-- A quotient without remainder is kept. -/
theorem roundDiv_mul (tie : Tie) (q : Nat) {d : Nat} (hd : 0 < d) :
    tie.roundDiv (q * d) d = q := by
  simp [roundDiv, hd]

end Tie

end FusedGemm
