import FusedGemm.Numeric.Power

/-!
# Sizes that fit in an address

Extents, strides and offsets are naturals; a size is *addressable* if it is below `2 ^ 64`.  The
checked operations below give the exact result if it is addressable and nothing otherwise.
-/

namespace FusedGemm.AddressSpace

/-- The first size that no address reaches. -/
def limit : Nat := 2 ^ (64 : Nat)

/-- The size itself, if it is addressable. -/
def check (n : Nat) : Option Nat := if n < limit then some n else none

/-- The product, if it is addressable. -/
def mul? (m n : Nat) : Option Nat := check (m * n)

/-- The sum, if it is addressable. -/
def add? (m n : Nat) : Option Nat := check (m + n)

theorem check_eq_some_iff {n s : Nat} : check n = some s ↔ n < limit ∧ n = s := by
  unfold check
  split
  · simp_all
  · simp only [reduceCtorEq, false_iff]
    omega

theorem check_eq_none_iff {n : Nat} : check n = none ↔ limit ≤ n := by
  unfold check
  split <;> simp_all

theorem mul?_eq_some_iff {m n s : Nat} : mul? m n = some s ↔ m * n < limit ∧ m * n = s :=
  check_eq_some_iff

theorem add?_eq_some_iff {m n s : Nat} : add? m n = some s ↔ m + n < limit ∧ m + n = s :=
  check_eq_some_iff

end FusedGemm.AddressSpace
