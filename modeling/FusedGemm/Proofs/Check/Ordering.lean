import FusedGemm.Proofs.Check.Tolerance
import Mathlib.Data.List.Basic

/-!
# How comparisons are related

Comparing the other way around finds the same (`Comparison.mismatches_comm`).  Of two relative
comparisons the one with the larger tolerance finds no coordinate that the other one does not find,
and neither finds one that the exact comparison does not (`Comparison.differing_sublist`).
-/

namespace FusedGemm

/-- The floor of relative comparisons is finite and has no sign. -/
theorem ElementType.bounded_leastNormal (t : ElementType) : Bounded t.leastNormal := by
  cases t <;> decide +kernel

namespace Comparison

variable {comparison other : Comparison} {x y : Tensor}

/-! ### The other way around -/

theorem tolerates_comm (htype : x.type = y.type) (c : Coord) :
    comparison.tolerates x y c = comparison.tolerates y x c := by
  cases comparison with
  | exact => rfl
  | relative epsilon =>
    unfold tolerates
    dsimp only
    rw [htype, withinTolerance_comm]

theorem sameAt_comm (htype : x.type = y.type) (c : Coord) :
    comparison.sameAt x y c = comparison.sameAt y x c := by
  have hcode : x.sameCode (x.layout.offset c) y (y.layout.offset c) =
      y.sameCode (y.layout.offset c) x (x.layout.offset c) := by
    unfold Tensor.sameCode
    rw [BEq.comm, BEq.comm (a := (x.codes.getD _ _).toNat)]
  unfold sameAt
  rw [hcode, tolerates_comm htype]

theorem differing_comm (htype : x.type = y.type) (hextent : x.extent = y.extent) :
    comparison.differing x y = comparison.differing y x := by
  unfold differing
  rw [hextent]
  exact congrArg (fun p => y.extent.coords.filter p) (funext fun c => by rw [sameAt_comm htype])

/-- **Comparing the other way around finds the same.** -/
theorem mismatches_comm (comparison : Comparison) (x y : Tensor) :
    comparison.mismatches x y = comparison.mismatches y x := by
  unfold mismatches
  by_cases h : x.type = y.type ∧ x.extent = y.extent
  · rw [if_pos h, if_pos ⟨h.1.symm, h.2.symm⟩, differing_comm h.1 h.2]
  · rw [if_neg h, if_neg fun h' => h ⟨h'.1.symm, h'.2.symm⟩, Nat.max_comm x.count]

/-! ### Stricter comparisons -/

/-- What a comparison accepts another one accepts too. -/
def Refines (comparison other : Comparison) : Prop := ∀ (x y : Tensor) (c : Coord),
  comparison.tolerates x y c = true → other.tolerates x y c = true

theorem exact_refines (comparison : Comparison) : exact.Refines comparison :=
  fun _ _ _ h => absurd h Bool.false_ne_true

/-- A relative comparison is refined by one with a smaller tolerance. -/
theorem relative_refines {epsilon epsilon' : Float} (hnonneg : 0 ≤ epsilon)
    (hle : epsilon ≤ epsilon') (hfinite : epsilon'.isFinite = true) :
    (relative epsilon).Refines (relative epsilon') := by
  intro x y c h
  simp only [tolerates, Bool.and_eq_true] at h ⊢
  exact ⟨h.1, withinTolerance_mono x.type.bounded_leastNormal hnonneg hle hfinite h.2⟩

/-- A comparison that accepts more finds less. -/
theorem Refines.sublist (h : comparison.Refines other) (x y : Tensor) :
    (other.differing x y).Sublist (comparison.differing x y) := by
  refine List.monotone_filter_right _ fun c hc => ?_
  simp only [sameAt, Bool.not_eq_true', Bool.or_eq_false_iff] at hc ⊢
  refine ⟨hc.1, ?_⟩
  cases haccepted : comparison.tolerates x y c with
  | false => rfl
  | true => exact (h x y c haccepted).symm.trans hc.2

theorem Refines.count_le (h : comparison.Refines other) (x y : Tensor) :
    (other.mismatches x y).count ≤ (comparison.mismatches x y).count := by
  unfold mismatches
  split
  · exact (h.sublist x y).length_le
  · exact le_rfl

/-- **Comparisons are symmetric, and a larger tolerance finds less.**  Comparing the other way
around finds the same.  Of two relative comparisons the one with the larger tolerance finds only
coordinates that the other one finds, and these are found by the exact comparison. -/
theorem mismatches_comm_antitone :
    (∀ (comparison : Comparison) (x y : Tensor),
      comparison.mismatches x y = comparison.mismatches y x) ∧
    ∀ epsilon epsilon' : Float, 0 ≤ epsilon → epsilon ≤ epsilon' → epsilon'.isFinite = true →
      ∀ x y : Tensor,
        ((relative epsilon').differing x y).Sublist ((relative epsilon).differing x y) ∧
        ((relative epsilon).differing x y).Sublist (exact.differing x y) ∧
        ((relative epsilon').mismatches x y).count ≤ ((relative epsilon).mismatches x y).count ∧
        ((relative epsilon).mismatches x y).count ≤ (exact.mismatches x y).count := by
  refine ⟨mismatches_comm, fun epsilon epsilon' hnonneg hle hfinite x y => ?_⟩
  have hrelative := relative_refines hnonneg hle hfinite
  have hexact := exact_refines (relative epsilon)
  exact ⟨hrelative.sublist x y, hexact.sublist x y, hrelative.count_le x y, hexact.count_le x y⟩

/-- Of three elements that differ, one is close for both tolerances and one for the larger one. -/
theorem mismatches_comm_antitone_vector :
    let x : Tensor := ⟨"x", .f32, .vector 3, #[0x3f800000, 0x3f800000, 0x3f800000]⟩
    let y : Tensor := ⟨"y", .f32, .vector 3, #[0x3f800001, 0x3f8ccccd, 0x7fc00000]⟩
    (relative 0.2).mismatches x y = (relative 0.2).mismatches y x ∧
      ((relative 0.2).differing x y).Sublist ((relative 0.05).differing x y) ∧
      (relative 0.2).differing x y = [⟨2, 0, 0⟩] ∧
      (relative 0.05).differing x y = [⟨1, 0, 0⟩, ⟨2, 0, 0⟩] ∧
      exact.differing x y = [⟨0, 0, 0⟩, ⟨1, 0, 0⟩, ⟨2, 0, 0⟩] := by
  intro x y
  have hordered := mismatches_comm_antitone.2 0.05 0.2 (by decide +kernel) (by decide +kernel)
    (by decide +kernel) x y
  exact ⟨mismatches_comm_antitone.1 _ x y, hordered.1, by decide +kernel, by decide +kernel,
    by decide +kernel⟩

end Comparison

end FusedGemm
