import FusedGemm.Proofs.Gemm.Elementwise
import FusedGemm.Proofs.Gemm.Related

/-!
# What the outputs of a fused product depend on

The outputs are alike the tensors they started as (`alike_apply`).  They depend on the operands
through the cells, the factors and the direction of the pass alone, not on the names of tensors, and
a compact `D` does not depend on what it held before (`apply_renames`).
-/

namespace FusedGemm

namespace FusedProduct

open Tensor

variable (p : FusedProduct)

/-! ### Shapes -/

theorem alike_store (t : Tensor) (value : Cell → ComplexFloat) (cells : List Cell) :
    t.Alike (store t value cells) := by
  unfold store
  induction cells generalizing t with
  | nil => exact .refl t
  | cons cell cells ih => exact (alike_write t cell.coord (value cell)).trans (ih _)

theorem alike_raise (t : Tensor) (x : Float) : t.Alike (raise t x) := by
  unfold raise
  split_ifs
  · exact alike_write t _ _
  · exact .refl t

theorem alike_addGradients (cells : List Cell) (rows : List Nat) (t : Tensor) :
    t.Alike (rows.foldl (p.addGradient cells) t) := by
  induction rows generalizing t with
  | nil => exact .refl t
  | cons row rows ih => exact (alike_write t _ _).trans (ih _)

/-- **The outputs are alike the tensors they started as.** -/
theorem alike_apply (o : Outputs Tensor) (channel : Channel) :
    Option.Rel Alike (o.get? channel) ((p.apply o).get? channel) := by
  cases channel with
  | d => exact .some (alike_store o.d _ _)
  | absMaxD => exact rel_map (fun t => alike_raise t _) o.absMaxD
  | biasGradient => exact rel_map (fun t => p.alike_addGradients _ _ t) o.biasGradient
  | aux =>
    refine rel_map (fun t => ?_) o.aux
    split_ifs
    · exact .refl t
    · exact alike_store t _ _
  | absMaxAux => exact rel_map (fun t => alike_raise t _) o.absMaxAux

/-! ### Names -/

theorem store_renamed (t : Tensor) (name : String) (value : Cell → ComplexFloat)
    (cells : List Cell) :
    store (t.renamed name) value cells = (store t value cells).renamed name := by
  unfold store
  induction cells generalizing t with
  | nil => rfl
  | cons cell cells ih => exact ih (t.write cell.coord (value cell))

theorem raise_renamed (t : Tensor) (name : String) (x : Float) :
    raise (t.renamed name) x = (raise t x).renamed name := by
  unfold raise
  show (if (t.read .origin).re < x then _ else _) = _
  split_ifs <;> rfl

theorem addGradients_renamed (cells : List Cell) (rows : List Nat) (t : Tensor) (name : String) :
    rows.foldl (p.addGradient cells) (t.renamed name) =
      (rows.foldl (p.addGradient cells) t).renamed name := by
  induction rows generalizing t with
  | nil => rfl
  | cons row rows ih => exact ih (p.addGradient cells t row)

/-! ### Agreeing products -/

/-- The products have the same cells over the extent, the same factors and the same direction. -/
structure Agrees (p q : FusedProduct) (e : Extent) : Prop where
  cell_eq : ∀ c ∈ e, p.cell c = q.cell c
  scale_eq : p.scale = q.scale
  isSome_auxIn_eq : p.auxIn.isSome = q.auxIn.isSome

/-- The outputs start from the same contents, but for `D`, which is overwritten. -/
structure Restarts (o o' : Outputs Tensor) : Prop where
  compact : o.d.Compact
  alike : o.d.Alike o'.d
  renames : ∀ channel, channel ≠ .d →
    Option.Rel (fun t t' => ∃ name, t' = t.renamed name) (o.get? channel) (o'.get? channel)

variable {p} {q : FusedProduct} {o o' : Outputs Tensor}

namespace Agrees

variable {e : Extent} (h : Agrees p q e)
include h

theorem cells_eq : p.cells e = q.cells e :=
  List.map_congr_left fun c hc => h.cell_eq c (Extent.mem_coords.mp hc)

theorem product_eq : p.product = q.product := by
  funext cell
  unfold product
  rw [h.scale_eq]

theorem saved_eq : p.saved = q.saved := by
  funext cell
  unfold saved factors
  rw [h.scale_eq]

theorem addGradient_eq : p.addGradient = q.addGradient := by
  funext cells t row
  unfold addGradient gradient
  rw [h.isSome_auxIn_eq]

theorem isNone_auxIn_eq : p.auxIn.isNone = q.auxIn.isNone := by
  rw [← Option.not_isSome, ← Option.not_isSome, h.isSome_auxIn_eq]

end Agrees

/-- The product with its tensors under other names, and with other sources of alpha and beta. -/
def relabelled (p : FusedProduct) (alpha beta : ScalarSource) : FusedProduct :=
  { p with
    a := p.a.renamed "A"
    b := p.b.renamed "B"
    c := p.c.renamed "C"
    alpha := alpha
    beta := beta
    bias := p.bias.map fun t => t.renamed "bias"
    auxIn := p.auxIn.map fun t => t.renamed "Aux" }

/-- A product under other names agrees where it reads the same alpha and beta. -/
theorem agrees_relabelled (p : FusedProduct) {alpha beta : ScalarSource} {e : Extent}
    (halpha : ∀ c ∈ e, alpha.read c = p.alpha.read c)
    (hbeta : ∀ c ∈ e, beta.read c = p.beta.read c) : Agrees (p.relabelled alpha beta) p e where
  cell_eq c hc := by
    have hcombination : (p.relabelled alpha beta).combination c = p.combination c := by
      show ((alpha.read c).scale _).scale _ * _ + (beta.read c).scale _ * _ = _
      rw [halpha c hc, hbeta c hc]
      rfl
    have hbiased : (p.relabelled alpha beta).biased c = p.biased c := by
      have hbias : (p.relabelled alpha beta).bias = p.bias.map fun t => t.renamed "bias" := rfl
      unfold biased
      rw [hcombination, hbias]
      cases p.bias <;> rfl
    have hfinish : ∀ pre, (p.relabelled alpha beta).finish c pre = p.finish c pre := by
      intro pre
      have haux : (p.relabelled alpha beta).auxIn = p.auxIn.map fun t => t.renamed "Aux" := rfl
      unfold finish
      rw [haux]
      cases p.auxIn <;> rfl
    unfold cell
    rw [hbiased]
    exact congrArg (Cell.mk c (p.biased c)) (hfinish (p.biased c))
  scale_eq := rfl
  isSome_auxIn_eq := by
    show (p.auxIn.map _).isSome = _
    rw [Option.isSome_map]

/-- **Agreeing products have the same outputs**, up to names. -/
theorem apply_renames (h : Agrees p q o.d.extent) (hr : Restarts o o') (channel : Channel) :
    Option.Rel (fun t t' => ∃ name, t' = t.renamed name)
      ((p.apply o).get? channel) ((q.apply o').get? channel) := by
  have hextent : o'.d.extent = o.d.extent := hr.alike.extent_eq
  have hcells : q.cells o'.d.extent = p.cells o.d.extent := by
    rw [hextent, h.cells_eq]
  have hrel := hr.renames channel
  cases channel with
  | d =>
    obtain ⟨codes, name, hsize, hd⟩ := hr.alike.exists_codes
    refine .some ⟨name, ?_⟩
    show store o'.d q.product (q.cells o'.d.extent) = _
    rw [hcells, ← h.product_eq, hd, store_renamed, store_cells, writeAll_withCodes
      hr.compact.dense hr.compact.size_eq hsize, ← store_cells]
    rfl
  | absMaxD =>
    refine rel_map_map ?_ (hrel (by decide))
    rintro t _ ⟨name, rfl⟩
    exact ⟨name, by rw [hcells, raise_renamed]⟩
  | biasGradient =>
    refine rel_map_map ?_ (hrel (by decide))
    rintro t _ ⟨name, rfl⟩
    exact ⟨name, by rw [hcells, hextent, ← h.addGradient_eq, addGradients_renamed]⟩
  | aux =>
    refine rel_map_map ?_ (hrel (by decide))
    rintro t _ ⟨name, rfl⟩
    refine ⟨name, ?_⟩
    rw [hcells, ← h.isSome_auxIn_eq, ← h.saved_eq, store_renamed]
    split_ifs <;> rfl
  | absMaxAux =>
    have haux : o'.aux.isSome = o.aux.isSome := isSome_of_rel (hr.renames .aux (by decide))
    refine rel_map_map ?_ (hrel (by decide))
    rintro t _ ⟨name, rfl⟩
    refine ⟨name, ?_⟩
    unfold largestSaved
    rw [hcells, haux, ← h.isNone_auxIn_eq, raise_renamed]

end FusedProduct

end FusedGemm
