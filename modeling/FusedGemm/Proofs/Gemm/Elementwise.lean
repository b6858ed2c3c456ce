import FusedGemm.Gemm.Reference
import FusedGemm.Proofs.Tensor.Storing

/-!
# The elements of a fused product

A fused product stores into `D` and `Aux` cell by cell.  Where the operands are *shaped*, that is
where their extents belong to one problem, their storage covers their layouts and the layouts of `D`
and `Aux` separate coordinates, nothing is read or written outside the storage, and each element
ends as the value of its own coordinate (`applyCovered?_elementwise`).
-/

namespace FusedGemm

namespace FusedProduct

/-- The operands and outputs of an `m × k` by `k × n` product in `l` batches.  The inputs may have
any strides; no two elements of `D`, and none of `Aux`, share their storage. -/
structure Shaped (p : FusedProduct) (o : Outputs Tensor) (m n k l : Nat) : Prop where
  extent_a : p.a.extent = ⟨m, k, l⟩
  extent_b : p.b.extent = ⟨k, n, l⟩
  extent_c : p.c.extent = ⟨m, n, l⟩
  extent_d : o.d.extent = ⟨m, n, l⟩
  extent_auxIn : ∀ t ∈ p.auxIn, t.extent = ⟨m, n, l⟩
  extent_aux : ∀ t ∈ o.aux, t.extent = ⟨m, n, l⟩
  covers_a : p.a.Covers p.a.extent
  covers_b : p.b.Covers p.b.extent
  covers_c : p.c.Covers p.c.extent
  covers_d : o.d.Covers o.d.extent
  covers_auxIn : ∀ t ∈ p.auxIn, t.Covers t.extent
  covers_aux : ∀ t ∈ o.aux, t.Covers t.extent
  covers_alpha : p.alpha.Covers ⟨m, n, l⟩
  covers_beta : p.beta.Covers ⟨m, n, l⟩
  covers_bias : ∀ t ∈ p.bias, t.Covers ⟨m, 1, 1⟩
  covers_biasGradient : ∀ t ∈ o.biasGradient, t.Covers ⟨m, 1, 1⟩
  covers_absMaxD : ∀ t ∈ o.absMaxD, t.Covers ⟨1, 1, 1⟩
  covers_absMaxAux : ∀ t ∈ o.absMaxAux, t.Covers ⟨1, 1, 1⟩
  separates_d : o.d.layout.Separates
  separates_aux : ∀ t ∈ o.aux, t.layout.Separates

variable {p : FusedProduct} {o : Outputs Tensor} {m n k l : Nat}

theorem Shaped.covered (h : Shaped p o m n k l) : p.Covered o := by
  have ha := h.extent_a
  have hb := h.extent_b
  have hcells : p.CoversCells o ⟨m, n, l⟩ := by
    refine ⟨?_, ?_, ?_, h.covers_alpha, h.covers_beta, ?_, h.covers_bias, ?_, ?_⟩
    · simpa only [ha] using h.covers_a
    · simpa only [ha, hb] using h.covers_b
    · exact h.extent_c ▸ h.covers_c
    · exact h.extent_d ▸ h.covers_d
    · exact fun t ht => h.extent_auxIn t ht ▸ h.covers_auxIn t ht
    · exact fun _ t ht => h.extent_aux t ht ▸ h.covers_aux t ht
  unfold Covered
  rw [h.extent_d]
  exact ⟨Or.inr hcells, h.covers_biasGradient, h.covers_absMaxD, h.covers_absMaxAux⟩

/-- Storing a value for each cell is storing it at each coordinate. -/
theorem store_cells (t : Tensor) (value : Cell → ComplexFloat) (e : Extent) :
    store t value (p.cells e) = t.writeAll e.coords fun c => value (p.cell c) := by
  unfold store cells Tensor.writeAll
  rw [List.foldl_map]
  rfl

theorem store_cells_overwrites {t : Tensor} {e : Extent} (he : t.extent = e)
    (hcov : t.Covers t.extent) (hsep : t.layout.Separates) (value : Cell → ComplexFloat) :
    (store t value (p.cells e)).Overwrites t fun c => value (p.cell c) := by
  subst he
  rw [store_cells]
  exact Tensor.writeAll_overwrites hcov hsep _

/-- **The elements of a fused product.**  Nothing outside the storage is touched; `D` is overwritten
with the scaled result at each coordinate, and so is `Aux` with the value before the activation,
unless a saved one is read, when it stays as it was. -/
theorem applyCovered?_elementwise (h : Shaped p o m n k l) :
    let factors := p.scale.getD ⟨1, 1, 1, 1, 1⟩
    let acc (c : Coord) := (List.range k).foldl (fun acc i => p.accumulator.quantize
      (acc + p.a.read ⟨c.row, i, c.batch⟩ * p.b.read ⟨i, c.col, c.batch⟩)) ⟨0, 0⟩
    let combined (c : Coord) := ((p.alpha.read c).scale factors.a).scale factors.b * acc c +
      (p.beta.read c).scale factors.c * p.c.read c
    let pre (c : Coord) := match p.bias with
      | some bias => combined c + bias.read ⟨c.row, 0, 0⟩
      | none => combined c
    let result (c : Coord) := match p.auxIn with
      | some aux => (pre c).scale (p.activation.derivative (aux.read c).re)
      | none => p.activation.apply (pre c)
    ∃ o', p.applyCovered? o = some o' ∧
      o'.d.Overwrites o.d (fun c => match p.scale with
        | some s => (result c).scale s.d
        | none => result c) ∧
      match p.auxIn, o.aux with
      | none, some t => ∃ t', o'.aux = some t' ∧ t'.Overwrites t fun c => (pre c).scale factors.aux
      | _, _ => o'.aux = o.aux := by
  intro factors acc combined pre result
  have hk : p.a.extent.cols = k := by rw [h.extent_a]
  -- each cell of the product holds the values above
  have hpre : ∀ c, (p.cell c).pre = pre c := by
    intro c
    subst hk
    rfl
  have hresult : ∀ c, (p.cell c).result = result c := by
    intro c
    show p.finish c (p.biased c) = _
    rw [show p.biased c = pre c from hpre c]
    rfl
  refine ⟨p.apply o, if_pos h.covered, ?_, ?_⟩
  · have hd := store_cells_overwrites (p := p) rfl h.covers_d h.separates_d p.product
    have heq : (fun c => p.product (p.cell c)) = fun c => match p.scale with
        | some s => (result c).scale s.d
        | none => result c := by
      funext c
      exact congrArg (fun z : ComplexFloat => match p.scale with
        | some s => z.scale s.d
        | none => z) (hresult c)
    exact heq ▸ hd
  · have haux : (p.apply o).aux = o.aux.map fun t =>
        if p.auxIn.isSome then t else store t p.saved (p.cells o.d.extent) := rfl
    split
    · next t hin hout =>
      have ht := h.extent_aux t hout
      have hw := store_cells_overwrites (p := p) (ht.trans h.extent_d.symm) (h.covers_aux t hout)
        (h.separates_aux t hout) p.saved
      have heq : (fun c => p.saved (p.cell c)) = fun c => (pre c).scale factors.aux := by
        funext c
        rw [saved, hpre]
        rfl
      exact ⟨_, by rw [haux, hout, hin]; rfl, heq ▸ hw⟩
    · next hnot =>
      rw [haux]
      cases hout : o.aux with
      | none => rfl
      | some t =>
        cases hin : p.auxIn with
        | none => exact absurd hout (hnot t hin)
        | some _ => rfl

/-- A product of a row-major and a column-major matrix, with a broadcast summand and a factor for
each row. -/
def sample : FusedProduct where
  a := .zeros "A" .f32 ⟨⟨2, 3, 1⟩, ⟨3, 1, 0⟩⟩
  b := .zeros "B" .f16 ⟨⟨3, 2, 1⟩, ⟨1, 3, 0⟩⟩
  accumulator := .f16
  c := .zeros "C" .f32 ⟨⟨2, 2, 1⟩, .none⟩
  alpha := .broadcast (.zeros "alpha" .f32 ⟨⟨2, 2, 1⟩, ⟨1, 0, 0⟩⟩)
  beta := .value 1
  scale := some {}
  bias := some (.zeros "bias" .f32 (.vector 2))
  activation := .relu

/-- Its outputs; the rows of `D` are one element apart. -/
def sampleOutputs : Outputs Tensor where
  d := .zeros "D" .f16 ⟨⟨2, 2, 1⟩, ⟨3, 1, 0⟩⟩
  absMaxD := none
  biasGradient := none
  aux := some (.zeros "Aux" .f32 ⟨⟨2, 2, 1⟩, ⟨1, 2, 0⟩⟩)
  absMaxAux := none

theorem shaped_sample : Shaped sample sampleOutputs 2 2 3 1 := by
  have hd : sampleOutputs.d.layout.Separates := by
    rintro ⟨r, c, b⟩ ⟨hr, hc, hb⟩ ⟨r', c', b'⟩ ⟨hr', hc', hb'⟩ h
    simp only [sampleOutputs, Tensor.zeros, Layout.offset] at hr hc hb hr' hc' hb' h
    simp only [Coord.mk.injEq]
    omega
  have haux : ∀ t ∈ sampleOutputs.aux, t.layout.Separates := by
    rintro _ ⟨⟩ ⟨r, c, b⟩ ⟨hr, hc, hb⟩ ⟨r', c', b'⟩ ⟨hr', hc', hb'⟩ h
    simp only [Tensor.zeros, Layout.offset] at hr hc hb hr' hc' hb' h
    simp only [Coord.mk.injEq]
    omega
  exact ⟨rfl, rfl, rfl, rfl, by decide, by decide, by decide, by decide, by decide, by decide,
    by decide, by decide, by decide, trivial, by decide, by decide, by decide, by decide, hd, haux⟩

/-- The element between the rows keeps its value. -/
theorem applyCovered?_elementwise_sample : Shaped sample sampleOutputs 2 2 3 1 ∧
    ∃ o', sample.applyCovered? sampleOutputs = some o' ∧ o'.d.get 2 = sampleOutputs.d.get 2 := by
  obtain ⟨o', happly, ⟨codes, hd, -, -, hkeep⟩, -⟩ := applyCovered?_elementwise shaped_sample
  refine ⟨shaped_sample, o', happly, ?_⟩
  have hgap : codes[2]? = sampleOutputs.d.codes[2]? := by
    refine hkeep 2 fun c hc heq => ?_
    obtain ⟨hr, hc, -⟩ := hc
    simp only [sampleOutputs, Tensor.zeros, Tensor.extent, Layout.offset] at hr hc heq
    omega
  have hcode : codes.getD 2 0 = sampleOutputs.d.codes.getD 2 0 := by
    rw [Array.getD_eq_getD_getElem?, Array.getD_eq_getD_getElem?, hgap]
  rw [hd]
  exact congrArg sampleOutputs.d.type.decode hcode

end FusedProduct

end FusedGemm
