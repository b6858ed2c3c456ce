import FusedGemm.Proofs.Check.Locating
import Mathlib.Data.Set.Card

/-!
# What a comparison counts

Tensors of one type and one extent are compared coordinate by coordinate, whatever their layouts.
Two elements are unequal if their bytes differ and, where closeness counts, they are not close
(`Comparison.Unequal`).  A comparison finds the number of coordinates with unequal elements and the
first of them (`Comparison.mismatches_counts`); so it finds nothing in tensors whose elements have
the same bytes.
-/

namespace FusedGemm

/-! ### The bytes of an element -/

namespace ElementType

/-- A code is known from its bytes. -/
theorem codeBytes_eq_iff {t u : ElementType} (htype : t = u) (code : Code t) (code' : Code u) :
    t.codeBytes code = u.codeBytes code' ↔ code.toNat = code'.toNat := by
  subst htype
  refine ⟨fun h => ?_, fun h => congrArg (littleEndian t.size) h⟩
  have hcode := congrArg t.ofCodeBytes h
  rw [ofCodeBytes_codeBytes, ofCodeBytes_codeBytes] at hcode
  rw [hcode]

end ElementType

namespace Tensor

variable {t u : Tensor} {c : Coord}

/-- The bytes of the element at a coordinate. -/
def elementBytes (t : Tensor) (c : Coord) : List UInt8 :=
  (t.bytes.drop (t.layout.offset c * t.type.size)).take t.type.size

theorem elementBytes_eq (h : t.layout.offset c < t.codes.size) :
    t.elementBytes c = t.type.codeBytes (t.codes.getD (t.layout.offset c) 0) := by
  have hget : t.codes.getD (t.layout.offset c) 0 = t.codes[t.layout.offset c] := by
    simp [Array.getD, h]
  rw [hget]
  exact t.type.take_drop_flatMap _ (by simpa using h)

/-- Elements in the storage have the same code if they have the same bytes. -/
theorem sameCode_iff (htype : t.type = u.type) (ht : t.layout.offset c < t.codes.size)
    (hu : u.layout.offset c < u.codes.size) :
    t.sameCode (t.layout.offset c) u (u.layout.offset c) = true ↔
      t.elementBytes c = u.elementBytes c := by
  rw [elementBytes_eq ht, elementBytes_eq hu, ElementType.codeBytes_eq_iff htype]
  simp [sameCode, htype]

/-- The elements of an extent that is covered lie in the storage. -/
theorem end_le_length_bytes (h : t.Covers t.extent) (hc : c ∈ t.extent) :
    (t.layout.offset c + 1) * t.type.size ≤ t.bytes.length := by
  rw [length_bytes]
  exact Nat.mul_le_mul_right _ (offset_lt_size h hc)

end Tensor

/-! ### What is found -/

/-- What is found are the coordinates of a set: their number and the first of them in batch, row,
column order. -/
structure Mismatches.Counts (found : Mismatches) (cs : Set Coord) : Prop where
  finite : cs.Finite
  count_eq : found.count = cs.ncard
  first_eq_none_iff : found.first = none ↔ found.count = 0
  first_eq_some_iff : ∀ c, found.first = some c ↔ c ∈ cs ∧ ∀ c' ∈ cs, c' = c ∨ c.Before c'

/-- A list of coordinates in order finds the set of its entries. -/
theorem Mismatches.counts_of_pairwise {cs : List Coord} (h : cs.Pairwise Coord.Before) :
    Mismatches.Counts ⟨cs.length, cs.head?⟩ {c | c ∈ cs} := by
  have hnodup : cs.Nodup := h.imp fun hbefore heq => (heq ▸ hbefore).asymm (heq ▸ hbefore)
  have hset : {c | c ∈ cs} = (cs.toFinset : Set Coord) := by
    ext c
    simp
  refine ⟨?_, ?_, ?_, fun c => head?_eq_some_iff_of_before h⟩
  · rw [hset]
    exact cs.toFinset.finite_toSet
  · rw [hset, Set.ncard_coe_finset, List.toFinset_card_of_nodup hnodup]
  · rw [List.head?_eq_none_iff, List.length_eq_zero_iff]

namespace Comparison

variable {comparison : Comparison} {x y : Tensor}

/-- Two elements are unequal: their bytes differ, and if closeness counts, which it does in the
relative mode for elements without an imaginary part, they are not close. -/
def Unequal (comparison : Comparison) (x y : Tensor) (c : Coord) : Prop :=
  x.elementBytes c ≠ y.elementBytes c ∧
    ∀ epsilon, comparison = .relative epsilon → x.type.isComplex = false →
      withinTolerance (x.read c).re (y.read c).re epsilon x.type.leastNormal = false

theorem sameAt_eq_false_iff {c : Coord} (htype : x.type = y.type)
    (hx : x.layout.offset c < x.codes.size) (hy : y.layout.offset c < y.codes.size) :
    comparison.sameAt x y c = false ↔ comparison.Unequal x y c := by
  unfold sameAt Unequal
  rw [Bool.or_eq_false_iff, ← Bool.not_eq_true, Tensor.sameCode_iff htype hx hy]
  refine and_congr_right fun _ => ?_
  cases comparison with
  | exact => exact iff_of_true rfl nofun
  | relative epsilon =>
    cases hcomplex : x.type.isComplex with
    | true => simp [tolerates, hcomplex]
    | false => simp [tolerates, hcomplex]

/-- The listed differences are the coordinates with unequal elements. -/
theorem mem_differing (hx : x.Covers x.extent) (hy : y.Covers y.extent) (htype : x.type = y.type)
    (hextent : x.extent = y.extent) {c : Coord} :
    c ∈ comparison.differing x y ↔ c ∈ x.extent ∧ comparison.Unequal x y c := by
  unfold differing
  rw [List.mem_filter, Extent.mem_coords, Bool.not_eq_true']
  refine and_congr_right fun hc => ?_
  exact sameAt_eq_false_iff htype (Tensor.offset_lt_size hx hc)
    (Tensor.offset_lt_size hy (hextent ▸ hc))

/-- Tensors of different types or extents differ at least once and nowhere first. -/
theorem mismatches_of_ne (h : x.type ≠ y.type ∨ x.extent ≠ y.extent) :
    1 ≤ (comparison.mismatches x y).count ∧ (comparison.mismatches x y).first = none := by
  unfold mismatches
  rw [if_neg (by rw [not_and_or]; exact h)]
  exact ⟨Nat.le_max_right _ _, rfl⟩

theorem mismatches_of_eq (htype : x.type = y.type) (hextent : x.extent = y.extent) :
    comparison.mismatches x y =
      ⟨(comparison.differing x y).length, (comparison.differing x y).head?⟩ :=
  if_pos ⟨htype, hextent⟩

/-- Nothing is found in tensors whose elements have the same bytes. -/
theorem mismatches_of_elementBytes_eq (hx : x.Covers x.extent) (hy : y.Covers y.extent)
    (htype : x.type = y.type) (hextent : x.extent = y.extent)
    (h : ∀ c ∈ x.extent, x.elementBytes c = y.elementBytes c) :
    comparison.mismatches x y = ⟨0, none⟩ := by
  have hnone : comparison.differing x y = [] := by
    refine List.eq_nil_iff_forall_not_mem.mpr fun c hc => ?_
    obtain ⟨hmem, hunequal⟩ := (mem_differing hx hy htype hextent).mp hc
    exact hunequal.1 (h c hmem)
  rw [mismatches_of_eq htype hextent, hnone]
  rfl

/-- **A comparison counts the coordinates with unequal elements and names the first of them**,
whatever the layouts, and reads nothing outside the storage.  It finds nothing in tensors whose
elements have the same bytes, like a tensor and itself.  Tensors of different types or extents have
at least one mismatch and no first one. -/
theorem mismatches_counts (comparison : Comparison) {x y : Tensor} (hx : x.Covers x.extent)
    (hy : y.Covers y.extent) :
    (x.type ≠ y.type ∨ x.extent ≠ y.extent →
      1 ≤ (comparison.mismatches x y).count ∧ (comparison.mismatches x y).first = none) ∧
    (x.type = y.type → x.extent = y.extent →
      (comparison.mismatches x y).Counts {c | c ∈ x.extent ∧ comparison.Unequal x y c} ∧
      (∀ c ∈ x.extent, (x.layout.offset c + 1) * x.type.size ≤ x.bytes.length ∧
        (y.layout.offset c + 1) * y.type.size ≤ y.bytes.length) ∧
      ((∀ c ∈ x.extent, x.elementBytes c = y.elementBytes c) →
        comparison.mismatches x y = ⟨0, none⟩)) ∧
    comparison.mismatches x x = ⟨0, none⟩ := by
  refine ⟨mismatches_of_ne, fun htype hextent => ⟨?_, fun c hc => ⟨?_, ?_⟩, ?_⟩, ?_⟩
  · have hset : {c | c ∈ x.extent ∧ comparison.Unequal x y c} =
        {c | c ∈ comparison.differing x y} := by
      ext c
      exact (mem_differing hx hy htype hextent).symm
    rw [hset, mismatches_of_eq htype hextent]
    exact Mismatches.counts_of_pairwise (x.extent.pairwise_coords.filter _)
  · exact Tensor.end_le_length_bytes hx hc
  · exact Tensor.end_le_length_bytes hy (hextent ▸ hc)
  · exact mismatches_of_elementBytes_eq hx hy htype hextent
  · exact mismatches_of_elementBytes_eq hx hx rfl rfl fun _ _ => rfl

/-- A matrix of two rows against one row that stands for both. -/
theorem mismatches_counts_broadcast :
    let matrix : Tensor := ⟨"D", .f16, ⟨⟨2, 2, 1⟩, ⟨2, 1, 0⟩⟩, #[0x3c00, 0x7e00, 0x3c01, 0x4000]⟩
    let row : Tensor := ⟨"row", .f16, ⟨⟨2, 2, 1⟩, ⟨0, 1, 0⟩⟩, #[0x3c00, 0x7e00]⟩
    ((relative 0.1).mismatches matrix row).Counts
        {c | c ∈ matrix.extent ∧ (relative 0.1).Unequal matrix row c} ∧
      (relative 0.1).mismatches matrix row = ⟨1, some ⟨1, 1, 0⟩⟩ ∧
      exact.mismatches matrix row = ⟨2, some ⟨1, 0, 0⟩⟩ := by
  intro matrix row
  have hcounts := mismatches_counts (relative 0.1) (x := matrix) (y := row) (by decide) (by decide)
  exact ⟨(hcounts.2.1 rfl rfl).1, by decide +kernel, by decide +kernel⟩

end Comparison

end FusedGemm
