import FusedGemm.Proofs.Gemm.Reductions
import FusedGemm.Proofs.Tensor.Ones

/-!
# A fused product computed again

Computing a fused product once more changes only its gradient: `D` and `Aux` are overwritten with
what they hold, and a running maximum that has been raised is not raised further, whatever its type
has made of the number (`apply_apply`).  So all that tells how often a product has been computed is
the gradient, to each element of which the same sum has been added as many times
(`iterate_apply_succ`, `read_iterate_addGradients`).
-/

namespace FusedGemm

namespace FusedProduct

open Tensor

variable (p : FusedProduct)

/-- A gradient with the sums of all rows added. -/
def addGradients (e : Extent) (t : Tensor) : Tensor :=
  (List.range e.rows).foldl (p.addGradient (p.cells e)) t

/-! ### One output -/

theorem store_store (t : Tensor) (value : Cell → ComplexFloat) (e : Extent) :
    store (store t value (p.cells e)) value (p.cells e) = store t value (p.cells e) := by
  rw [store_cells, store_cells, writeAll_writeAll]

theorem raise_raise (t : Tensor) (x : Float) : raise (raise t x) x = raise t x := by
  by_cases h : (t.read .origin).re < x
  · have hraise : raise t x = t.writeAll [.origin] fun _ => .ofReal x := if_pos h
    rw [hraise]
    -- the number that is read back need not be `x`; if it is less, `x` is stored once more
    unfold raise
    split_ifs
    · exact writeAll_writeAll t [.origin] _
    · rfl
  · have hraise : raise t x = t := if_neg h
    rw [hraise, hraise]

/-! ### All outputs -/

theorem extent_apply (o : Outputs Tensor) : (p.apply o).d.extent = o.d.extent :=
  (alike_store o.d _ _).extent_eq

theorem apply_apply (o : Outputs Tensor) : p.apply (p.apply o) =
    { p.apply o with
      biasGradient := (p.apply o).biasGradient.map (p.addGradients o.d.extent) } := by
  have hextent := p.extent_apply o
  have hsaves : (p.apply o).aux.isSome = o.aux.isSome := Option.isSome_map
  unfold apply at hextent hsaves ⊢
  simp only [hextent, hsaves, store_store, Option.map_map]
  congr 2
  · funext t
    exact raise_raise t _
  · funext t
    dsimp only [Function.comp_apply]
    split_ifs
    · rfl
    · exact p.store_store t _ _
  · funext t
    exact raise_raise t _

/-- **Computed once or more, only the gradient tells how often.** -/
theorem iterate_apply_succ (o : Outputs Tensor) (n : Nat) : p.apply^[n + 1] o =
    { p.apply o with
      biasGradient := o.biasGradient.map (p.addGradients o.d.extent)^[n + 1] } := by
  induction n with
  | zero => rfl
  | succ n ih =>
    -- the other outputs do not depend on the gradient, which is added to by itself
    have hgradient : p.apply (p.apply^[n + 1] o) = { p.apply (p.apply o) with
        biasGradient := (o.biasGradient.map (p.addGradients o.d.extent)^[n + 1]).map
          (p.addGradients (p.apply o).d.extent) } := by
      rw [ih]
      rfl
    rw [Function.iterate_succ_apply', hgradient, apply_apply, extent_apply, Option.map_map,
      ← Function.iterate_succ']

/-- What `D` held before is forgotten. -/
theorem apply_withCodes {o : Outputs Tensor} (h : o.d.Compact) {codes : Array (Code o.d.type)}
    (hsize : codes.size = o.d.codes.size) :
    p.apply { o with d := o.d.withCodes codes } = p.apply o := by
  have hd : store (o.d.withCodes codes) p.product (p.cells o.d.extent) =
      store o.d p.product (p.cells o.d.extent) := by
    rw [store_cells, store_cells, writeAll_withCodes h.dense h.size_eq hsize]
  exact congrArg (fun d => { p.apply o with d := d }) hd

/-! ### Gradients -/

theorem alike_iterate_addGradients (e : Extent) (t : Tensor) (n : Nat) :
    t.Alike ((p.addGradients e)^[n] t) := by
  induction n with
  | zero => exact .refl t
  | succ n ih =>
    rw [Function.iterate_succ_apply']
    exact ih.trans (p.alike_addGradients _ _ _)

/-- To each element of a gradient the same sum is added each time, and rounded. -/
theorem read_iterate_addGradients {e : Extent} {t : Tensor} (hcov : t.Covers ⟨e.rows, 1, 1⟩)
    (hrows : ∀ row < e.rows, ∀ row' < e.rows,
      t.layout.offset ⟨row, 0, 0⟩ = t.layout.offset ⟨row', 0, 0⟩ → row = row')
    {row : Nat} (hrow : row < e.rows) (n : Nat) :
    ((p.addGradients e)^[n] t).read ⟨row, 0, 0⟩ =
      (fun z => t.type.quantize (z + p.rowGradient e row))^[n] (t.read ⟨row, 0, 0⟩) := by
  induction n with
  | zero => rfl
  | succ n ih =>
    have halike := p.alike_iterate_addGradients e t n
    have hstores := p.addGradients_stores (hcov.of_alike halike) (halike.layout_eq.symm ▸ hrows)
    rw [Function.iterate_succ_apply', Function.iterate_succ_apply', ← ih, ← halike.type_eq]
    exact hstores.read_eq (mem_rowCoords.mpr ⟨row, hrow, rfl⟩)

/-- So a gradient that starts from zeros counts the times. -/
theorem read_iterate_addGradients_zeros {e : Extent} {row : Nat} (hrow : row < e.rows)
    (name : String) (type : ElementType) (n : Nat) :
    ((p.addGradients e)^[n] (.zeros name type (.vector e.rows))).read ⟨row, 0, 0⟩ =
      (fun z => type.quantize (z + p.rowGradient e row))^[n] .zero := by
  have hcov : (zeros name type (.vector e.rows)).Covers ⟨e.rows, 1, 1⟩ :=
    (size_zeros name type (.vector e.rows)).ge
  rw [p.read_iterate_addGradients hcov (fun i _ j _ heq => ?_) hrow]
  · exact congrArg _ (get_zeros name type _ _)
  · simpa only [zeros, Layout.offset_vector] using heq

/-! ### Storage -/

theorem covers_of_rel {x y : Option Tensor} (h : Option.Rel Alike x y) {e : Extent}
    (hx : ∀ t ∈ x, t.Covers e) : ∀ u ∈ y, u.Covers e := by
  rintro u rfl
  obtain ⟨t, ht, halike⟩ := exists_of_rel_of_some h
  exact (hx t ht).of_alike halike

/-- Whether everything that is touched is in the storage does not depend on its contents. -/
theorem Covered.of_alike {p : FusedProduct} {o o' : Outputs Tensor} (h : p.Covered o)
    (halike : ∀ channel, Option.Rel Alike (o.get? channel) (o'.get? channel)) : p.Covered o' := by
  obtain ⟨hcells, hgradient, habsMaxD, habsMaxAux⟩ := h
  have hextent : o'.d.extent = o.d.extent := by
    cases halike .d with
    | some hd => exact hd.extent_eq
  unfold Covered
  rw [hextent]
  refine ⟨hcells.imp_right ?_, covers_of_rel (halike .biasGradient) hgradient,
    covers_of_rel (halike .absMaxD) habsMaxD, covers_of_rel (halike .absMaxAux) habsMaxAux⟩
  rintro ⟨ha, hb, hc, halpha, hbeta, hd, hbias, hauxIn, haux⟩
  have hd' : ∀ t ∈ some o'.d, t.Covers o.d.extent :=
    covers_of_rel (halike .d) fun t ht => Option.some.inj ht ▸ hd
  exact ⟨ha, hb, hc, halpha, hbeta, hd' _ rfl, hbias, hauxIn,
    fun hnone => covers_of_rel (halike .aux) (haux hnone)⟩

theorem Covered.withCodes {p : FusedProduct} {o : Outputs Tensor} (h : p.Covered o)
    {codes : Array (Code o.d.type)} (hsize : codes.size = o.d.codes.size) :
    p.Covered { o with d := o.d.withCodes codes } := by
  refine h.of_alike fun channel => ?_
  cases channel with
  | d => exact .some ⟨rfl, rfl, hsize⟩
  | _ => exact rel_refl Alike.refl _

theorem Covered.iterate_apply {p : FusedProduct} {o : Outputs Tensor} (h : p.Covered o) (n : Nat) :
    p.Covered (p.apply^[n] o) := by
  induction n with
  | zero => exact h
  | succ n ih =>
    rw [Function.iterate_succ_apply']
    exact ih.of_alike (p.alike_apply _)

end FusedProduct

end FusedGemm
