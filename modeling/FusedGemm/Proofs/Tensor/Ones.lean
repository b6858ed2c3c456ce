import FusedGemm.Proofs.Numeric.FromOne
import FusedGemm.Proofs.Tensor.Storing
import FusedGemm.Trial.Plan

/-!
# Tensors of ones

A tensor that has been filled with ones reads as one everywhere (`Tensor.Ones.read_eq`), whatever its
element type.  A tensor that is not empty and whose elements are all real numbers from one on has a
positive norm (`Tensor.HoldsFromOne.norm_pos`).
-/

namespace FusedGemm

/-- The square of a real number from one on. -/
theorem ComplexFloat.fromOne_normSquared {x : Float} (h : FromOne x) :
    FromOne (ComplexFloat.ofReal x).normSquared := by
  have hzero : (0 * 0 : Float) = 0 := by decide
  show FromOne (x * x + 0 * 0)
  rw [hzero, h.mul_self.unsigned.add_zero_eq]
  exact h.mul_self

namespace Tensor

variable {t u : Tensor}

/-! ### Ones -/

/-- Every element of the storage is a one. -/
def Ones (t : Tensor) : Prop := ∀ i < t.codes.size, t.get i = .ofReal 1

theorem Ones.put (h : t.Ones) (i : Nat) : (t.put i (.ofReal 1)).Ones := by
  intro j hj
  rw [size_put] at hj
  by_cases hij : i = j
  · subst hij
    rw [get_put_self t hj, ElementType.quantize_one]
  · rw [get_put_of_ne t hij, h j hj]

theorem Ones.withLeadingOne (h : t.Ones) : t.withLeadingOne.Ones := by
  unfold Tensor.withLeadingOne
  split_ifs
  · exact h.put _
  · exact h

theorem ones_fill (t : Tensor) : (t.fill 1).Ones := by
  intro i hi
  have hcode : (Array.replicate t.codes.size (t.type.encode (.ofReal 1))).getD i 0 =
      t.type.encode (.ofReal 1) := by
    have hlt : i < t.codes.size := by simpa [fill] using hi
    simp [Array.getD_eq_getD_getElem?, hlt]
  show t.type.decode ((Array.replicate t.codes.size (t.type.encode (.ofReal 1))).getD i 0) = _
  rw [hcode]
  exact t.type.quantize_one

theorem ones_fillFrom (t : Tensor) (seed : UInt64) : (t.fillFrom .ones seed).Ones := by
  have heq : t.fillFrom .ones seed = t.fill 1 := by
    show t.withCodes ((List.replicate t.codes.size (.ofReal 1)).map t.type.encode).toArray = _
    rw [List.map_replicate, List.toArray_replicate]
    rfl
  rw [heq]
  exact ones_fill t

theorem Ones.read_eq (h : t.Ones) {c : Coord} (hc : t.layout.offset c < t.codes.size) :
    t.read c = .ofReal 1 := h _ hc

/-- Storage of zero codes reads as zero, and so does what is outside of it. -/
theorem get_withCodes_replicate (t : Tensor) (n i : Nat) :
    (t.withCodes (Array.replicate n 0)).get i = .ofReal 0 := by
  have hcode : (Array.replicate n (0 : Code t.type)).getD i 0 = 0 := by
    rw [Array.getD_eq_getD_getElem?, Array.getElem?_replicate]
    split_ifs <;> rfl
  show t.type.decode ((Array.replicate n (0 : Code t.type)).getD i 0) = _
  rw [hcode, ElementType.decode_zero]

theorem get_zeros (name : String) (type : ElementType) (layout : Layout) (i : Nat) :
    (zeros name type layout).get i = .ofReal 0 :=
  get_withCodes_replicate (zeros name type layout) layout.span i

/-! ### Elements from one on -/

/-- Every element is a real number from one on. -/
def HoldsFromOne (t : Tensor) : Prop := ∀ c ∈ t.extent, ∃ x, FromOne x ∧ t.read c = .ofReal x

theorem Ones.holdsFromOne (h : t.Ones) (hcov : t.Covers t.extent) : t.HoldsFromOne :=
  fun _ hc => ⟨1, fromOne_one, h.read_eq (offset_lt_size hcov hc)⟩

/-- A tensor holds numbers from one on after they have been stored in it. -/
theorem Overwrites.holdsFromOne {f : Coord → ComplexFloat} (h : u.Overwrites t f)
    (hre : ∀ c ∈ t.extent, FromOne (f c).re)
    (him : t.type.isComplex = true → ∀ c ∈ t.extent, (f c).im = 0) : u.HoldsFromOne := by
  obtain ⟨codes, rfl, -, hcodes, -⟩ := h
  intro c hc
  obtain ⟨x, hx, hquantize⟩ :=
    t.type.exists_quantize_eq (hre c hc) fun hcomplex => him hcomplex c hc
  refine ⟨x, hx, ?_⟩
  show t.type.decode (codes.getD (t.layout.offset c) 0) = _
  rw [Array.getD_eq_getD_getElem?, hcodes c hc]
  exact hquantize

/-- **Numbers from one on have a positive norm**, unless there are none. -/
theorem HoldsFromOne.norm_pos (h : t.HoldsFromOne) (hpos : 0 < t.count) : 0.0 < t.norm := by
  have hne : t.extent.coords ≠ [] := by
    intro hnil
    have hlength := Extent.length_coords t.extent
    rw [hnil] at hlength
    exact hpos.ne hlength
  refine FromOne.sqrt_pos (FromOne.sum (fun c hc => ?_) hne Unsigned.neg_zero_add)
  obtain ⟨x, hx, hread⟩ := h c (Extent.mem_coords.mp hc)
  rw [hread]
  exact ComplexFloat.fromOne_normSquared hx

end Tensor

end FusedGemm
