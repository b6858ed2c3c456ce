import FusedGemm.Check.Equality
import FusedGemm.Proofs.Tensor.Storing
import FusedGemm.Tensor.Bytes

/-!
# When a comparison finds nothing

The exact comparison of compact tensors that are alike finds nothing if and only if they have the
same bytes (`exact_mismatches_eq_zero_iff`).  For tensors of the same bytes no comparison finds
anything (`mismatches_eq_zero`).
-/

namespace FusedGemm

namespace Tensor

variable {t u v : Tensor}

theorem alike_withBytes (t : Tensor) (bs : List UInt8) : Alike t (t.withBytes bs) :=
  ⟨rfl, rfl, by simp [withBytes, withCodes]⟩

theorem codes_eq_of_bytes_eq {codes : Array (Code t.type)} (hsize : codes.size = t.codes.size)
    (h : (t.withCodes codes).bytes = t.bytes) : codes = t.codes := by
  have hread : ∀ cs : Array (Code t.type),
      t.type.ofBytes cs.size (t.withCodes cs).bytes = cs.toList := by
    intro cs
    rw [← Array.length_toList]
    exact ElementType.ofBytes_flatMap t.type cs.toList
  apply Array.toList_inj.mp
  rw [← hread codes, ← hread t.codes, h, hsize]
  rfl

end Tensor

namespace Comparison

variable {comparison : Comparison} {t u : Tensor}

theorem mismatches_eq_zero_iff (h : t.Alike u) :
    (comparison.mismatches t u).count = 0 ↔ ∀ c ∈ t.extent, comparison.sameAt t u c = true := by
  unfold mismatches
  rw [if_pos ⟨h.type_eq.symm, h.extent_eq.symm⟩]
  simp only [differing, List.length_eq_zero_iff, List.filter_eq_nil_iff, Extent.mem_coords,
    Bool.not_eq_true', Bool.not_eq_false]

/-- **Tensors of the same bytes have no mismatches.** -/
theorem mismatches_eq_zero (h : t.Alike u) (hb : t.bytes = u.bytes) :
    (comparison.mismatches t u).count = 0 := by
  rw [mismatches_eq_zero_iff h]
  intro c _
  obtain ⟨codes, name, hsize, rfl⟩ := h.exists_codes
  obtain rfl := Tensor.codes_eq_of_bytes_eq hsize hb.symm
  simp [sameAt, Tensor.sameCode, Tensor.renamed, Tensor.withCodes]

/-- **The exact comparison of compact tensors is that of their bytes.** -/
theorem exact_mismatches_eq_zero_iff (ht : t.Compact) (h : t.Alike u) :
    (exact.mismatches t u).count = 0 ↔ t.bytes = u.bytes := by
  refine ⟨fun hzero => ?_, mismatches_eq_zero h⟩
  rw [mismatches_eq_zero_iff h] at hzero
  obtain ⟨codes, name, hsize, rfl⟩ := h.exists_codes
  have hcodes : t.codes = codes := by
    refine Array.ext hsize.symm fun i hi hi' => ?_
    obtain ⟨c, hc, rfl⟩ := ht.dense i (ht.size_eq ▸ hi)
    have hsame := hzero c hc
    simpa [sameAt, tolerates, Tensor.sameCode, Tensor.renamed, Tensor.withCodes,
      Array.getD_eq_getD_getElem?, hi, hi', ← BitVec.toNat_inj] using hsame
  subst hcodes
  rfl

end Comparison

end FusedGemm
