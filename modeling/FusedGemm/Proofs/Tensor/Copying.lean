import FusedGemm.Proofs.Check.Differences
import FusedGemm.Proofs.Numeric.Requantizing
import FusedGemm.Proofs.Tensor.Bounds

/-!
# Copying between layouts

A copy reads every element as a number and stores that number again.  In a tensor of the same type
the element then has the code that it had in the source, unless it holds NaN, so a copy between
layouts is exact wherever the target keeps its coordinates apart (`Tensor.copyFrom_exact`).
-/

namespace FusedGemm

namespace Tensor

variable {t u source : Tensor}

/-- Two storage elements of one type have the same code. -/
theorem sameCode?_eq_some_true_iff (htype : t.type = u.type) {i j : Nat} :
    t.sameCode? i u j = some true ↔ (i < t.codes.size ∧ j < u.codes.size) ∧
      (t.codes.getD i 0).toNat = (u.codes.getD j 0).toNat := by
  unfold sameCode? sameCode
  simp [htype]

/-- A number that has been read is stored with the code that it had. -/
theorem toNat_encode_read (htype : t.type = source.type) {c : Coord}
    (h : (source.read c).NoNaN) : (t.type.encode (source.read c)).toNat =
      (source.codes.getD (source.layout.offset c) 0).toNat := by
  rw [htype]
  exact congrArg BitVec.toNat (source.type.encode_decode h)

/-- The tensor holds what a copy of the other one makes of `t`: the codes of the other one at all
coordinates without NaN, and those of `t` at all indices that no coordinate addresses. -/
structure Copied (u t source : Tensor) : Prop where
  alike : t.Alike u
  copied : ∀ c ∈ t.extent, (source.read c).NoNaN →
    u.sameCode? (u.layout.offset c) source (source.layout.offset c) = some true
  kept : ∀ i < t.codes.size, (∀ c ∈ t.extent, t.layout.offset c ≠ i) →
    u.sameCode? i t i = some true

theorem Overwrites.copied (h : u.Overwrites t source.read) (htype : t.type = source.type)
    (ht : t.Covers t.extent) (hsource : source.Covers t.extent) : u.Copied t source := by
  obtain ⟨codes, rfl, hsize, hcodes, hkeep⟩ := h
  refine ⟨⟨rfl, rfl, hsize⟩, fun c hc hnan => ?_, fun i hi hne => ?_⟩
  · have hlt : t.layout.offset c < codes.size := hsize ▸ offset_lt_size ht hc
    have hlt' : source.layout.offset c < source.codes.size := hsource.offset_lt hc
    refine (sameCode?_eq_some_true_iff (t := t.withCodes codes) htype).mpr ⟨⟨hlt, hlt'⟩, ?_⟩
    show (codes.getD (t.layout.offset c) 0).toNat = _
    rw [Array.getD_eq_getD_getElem?, hcodes c hc]
    exact toNat_encode_read htype hnan
  · have hlt : i < codes.size := hsize ▸ hi
    refine (sameCode?_eq_some_true_iff (t := t.withCodes codes) (u := t) rfl).mpr ⟨⟨hlt, hi⟩, ?_⟩
    show (codes.getD i 0).toNat = _
    rw [Array.getD_eq_getD_getElem?, Array.getD_eq_getD_getElem?, hkeep i hne]

/-- Without NaN the copy and the source have the same elements. -/
theorem Copied.bytes_eq (h : u.Copied t source) (htype : t.type = source.type) {c : Coord}
    (hc : c ∈ t.extent) (hnan : (source.read c).NoNaN) :
    u.elementBytes c = source.elementBytes c := by
  have htype' := h.alike.type_eq.trans htype
  obtain ⟨⟨hlt, hlt'⟩, hcode⟩ := (sameCode?_eq_some_true_iff htype').mp (h.copied c hc hnan)
  rw [elementBytes_eq hlt, elementBytes_eq hlt', ElementType.codeBytes_eq_iff htype', hcode]

/-- **Copying between layouts is exact.**  Into a tensor of the same type and extent whose
coordinates share no element, a copy stores the codes of the source, signed zeros, subnormal numbers
and infinities among them, wherever that does not hold NaN, and changes nothing between the
coordinates.  So if the source holds no NaN, the exact comparison of the two finds nothing. -/
theorem copyFrom_exact {t source : Tensor} (htype : t.type = source.type)
    (hextent : t.extent = source.extent) (ht : t.Covers t.extent)
    (hsource : source.Covers source.extent) (hsep : t.layout.Separates) :
    ∃ u, t.copyFrom? source = some u ∧ t.copyChecked? source = some u ∧ u.Copied t source ∧
      ((∀ c ∈ t.extent, (source.read c).NoNaN) →
        Comparison.exact.mismatches u source = ⟨0, none⟩ ∧
        Comparison.exact.mismatches source u = ⟨0, none⟩) := by
  have hcopied : (t.copyFrom source).Copied t source :=
    (writeAll_overwrites ht hsep source.read).copied htype ht (hextent ▸ hsource)
  have halike := hcopied.alike
  have hcov := halike.covers_extent ht
  refine ⟨_, if_pos hextent, copyChecked?_eq_some ht hsource hextent.symm, hcopied, fun hnan => ?_⟩
  have hbytes : ∀ c ∈ t.extent, (t.copyFrom source).elementBytes c = source.elementBytes c :=
    fun c hc => hcopied.bytes_eq htype hc (hnan c hc)
  have htype' := halike.type_eq.trans htype
  have hextent' := halike.extent_eq.trans hextent
  exact ⟨Comparison.mismatches_of_elementBytes_eq hcov hsource htype' hextent'
      (halike.extent_eq.symm ▸ hbytes),
    Comparison.mismatches_of_elementBytes_eq hsource hcov htype'.symm hextent'.symm
      fun c hc => (hbytes c (hextent ▸ hc)).symm⟩

/-- Minus zero, the smallest subnormal number, minus infinity and one, copied from rows to columns
that have a gap between them. -/
theorem copyFrom_exact_columns :
    let source : Tensor := ⟨"C", .bf16, ⟨⟨2, 2, 1⟩, ⟨2, 1, 0⟩⟩, #[0x8000, 0x0001, 0xff80, 0x3f80]⟩
    let t : Tensor := ⟨"D", .bf16, ⟨⟨2, 2, 1⟩, ⟨1, 3, 0⟩⟩, #[7, 7, 7, 7, 7]⟩
    ∃ u, t.copyFrom? source = some u ∧ u.Copied t source ∧
      u.sameCode? 1 source 2 = some true ∧ u.sameCode? 2 t 2 = some true ∧
      Comparison.exact.mismatches u source = ⟨0, none⟩ := by
  intro source t
  have hpairs : ∀ c ∈ t.extent.coords, ∀ c' ∈ t.extent.coords,
      t.layout.offset c = t.layout.offset c' → c = c' := by decide
  have hcodes : ∀ c ∈ t.extent.coords, (source.read c).NoNaN := by decide +kernel
  have hgap : ∀ c ∈ t.extent.coords, t.layout.offset c ≠ 2 := by decide
  obtain ⟨u, hcopy, -, hcopied, hequal⟩ := @copyFrom_exact t source rfl rfl
    (by decide) (by decide) fun c hc c' hc' =>
      hpairs c (Extent.mem_coords.mpr hc) c' (Extent.mem_coords.mpr hc')
  have hnan : ∀ c ∈ t.extent, (source.read c).NoNaN := fun c hc =>
    hcodes c (Extent.mem_coords.mpr hc)
  have hinfinity := hcopied.copied ⟨1, 0, 0⟩ (by decide) (hnan _ (by decide))
  rw [hcopied.alike.layout_eq] at hinfinity
  exact ⟨u, hcopy, hcopied, hinfinity,
    hcopied.kept 2 (by decide) fun c hc => hgap c (Extent.mem_coords.mpr hc), (hequal hnan).1⟩

end Tensor

end FusedGemm
