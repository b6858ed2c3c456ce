import FusedGemm.Proofs.Gemm.Elementwise
import FusedGemm.Proofs.Gemm.Reductions
import FusedGemm.Proofs.Tensor.Ones

/-!
# Products of ones

Where all operands of a fused product read as one, but for beta, which is real and from one on
(`FusedProduct.OnOnes`), the sums stay at or below the ceiling of the accumulator, and all values
before and after the activation have a real part from one on.  They have no imaginary part while
beta is finite; an infinite beta makes it NaN, as it is multiplied by the imaginary part of `C`.

So `D`, `Aux` and the gradient of the bias hold numbers from one on, where they are computed.
-/

namespace FusedGemm

namespace ComplexFloat

/-- The real part is from one on, and where `finite` holds there is no imaginary part. -/
structure RealFromOne (z : ComplexFloat) (finite : Prop) : Prop where
  re : FromOne z.re
  im : finite → z.im = 0

theorem ofReal_add_ofReal (x y : Float) : ofReal x + ofReal y = ofReal (x + y) := by
  have hzero : (0 + 0 : Float) = 0 := by decide
  show (⟨x + y, 0 + 0⟩ : ComplexFloat) = ⟨x + y, 0⟩
  rw [hzero]

/-- One times a finite real number is that number. -/
theorem ofReal_one_mul {x : Float} (h : Bounded x) : ofReal 1 * ofReal x = ofReal x := by
  have hzero : (0 * 0 : Float) = 0 := by decide
  have hzero' : (1 * 0 + 0 : Float) = 0 := by decide
  show (⟨1 * x - 0 * 0, 1 * 0 + 0 * x⟩ : ComplexFloat) = ⟨x, 0⟩
  rw [h.unsigned.one_mul_eq, h.zero_mul_eq, hzero, hzero', h.unsigned.sub_zero_eq]

/-- A real number from one on times one: the imaginary part is lost if it is infinite. -/
theorem realFromOne_mul_one {x : Float} (h : FromOne x) :
    (ofReal x * ofReal 1).RealFromOne (Bounded x) := by
  have hzero : (0 * 0 : Float) = 0 := by decide
  refine ⟨?_, fun hbounded => ?_⟩
  · show FromOne (x * 1 - 0 * 0)
    rwa [hzero, h.unsigned.mul_one_eq, h.unsigned.sub_zero_eq]
  · show x * 0 + 0 * 1 = 0
    rw [hbounded.mul_zero_eq]
    decide

namespace RealFromOne

variable {z w : ComplexFloat} {finite : Prop}

theorem ofReal {x : Float} (h : FromOne x) : (ofReal x).RealFromOne finite := ⟨h, fun _ => rfl⟩

theorem add_left {x : Float} (h : z.RealFromOne finite) (hx : Unsigned x) :
    (ComplexFloat.ofReal x + z).RealFromOne finite := by
  refine ⟨h.re.add_left hx, fun hfinite => ?_⟩
  show 0 + z.im = 0
  rw [h.im hfinite]
  decide

theorem add_one (h : z.RealFromOne finite) : (z + .ofReal 1).RealFromOne finite := by
  refine ⟨h.re.add parts_one.unsigned, fun hfinite => ?_⟩
  show z.im + 0 = 0
  rw [h.im hfinite]
  decide

theorem scale_one (h : z.RealFromOne finite) : (z.scale 1).RealFromOne finite := by
  refine ⟨?_, fun hfinite => ?_⟩
  · show FromOne (z.re * 1)
    rw [h.re.unsigned.mul_one_eq]
    exact h.re
  · show z.im * 1 = 0
    rw [h.im hfinite]
    decide

/-- A sum of numbers from one on is one, from zero on and unless it is empty. -/
theorem sum {α : Type} {xs : List α} {f : α → ComplexFloat}
    (h : ∀ x ∈ xs, (f x).RealFromOne finite) (hne : xs ≠ []) :
    (xs.foldl (fun s x => s + f x) .zero).RealFromOne finite := by
  refine ⟨?_, fun hfinite => im_foldl_add (fun x hx => (h x hx).im hfinite) rfl⟩
  rw [re_foldl_add]
  exact FromOne.sum (fun x hx => (h x hx).re) hne Unsigned.zero_add_eq

end RealFromOne

end ComplexFloat

open ComplexFloat (RealFromOne)

/-- At one the derivatives are one, but for that of the logistic function. -/
theorem Activation.derivative_one {f : Activation} (h : f = .identity ∨ f = .relu) :
    f.derivative 1 = 1 := by
  rcases h with rfl | rfl <;> decide

theorem Activation.apply_fromOne {f : Activation} (h : f = .identity ∨ f = .relu)
    {z : ComplexFloat} {finite : Prop} (hz : z.RealFromOne finite) :
    (f.apply z).RealFromOne finite := by
  rcases h with rfl | rfl
  · exact hz
  · show (ComplexFloat.ofReal (maxNumber z.re 0)).RealFromOne finite
    rw [maxNumber_zero hz.re.unsigned hz.re.code_pos]
    exact .ofReal hz.re

namespace FusedProduct

/-- Inside the extent all operands read as one, but for beta, which is real and from one on. -/
structure OnOnes (p : FusedProduct) (e : Extent) : Prop where
  a : ∀ c ∈ e, ∀ k < p.a.extent.cols, p.a.read ⟨c.row, k, c.batch⟩ = .ofReal 1
  b : ∀ c ∈ e, ∀ k < p.a.extent.cols, p.b.read ⟨k, c.col, c.batch⟩ = .ofReal 1
  c : ∀ c ∈ e, p.c.read c = .ofReal 1
  alpha : ∀ c ∈ e, p.alpha.read c = .ofReal 1
  beta : ∀ c ∈ e, ∃ x, FromOne x ∧ p.beta.read c = .ofReal x
  factors_eq : p.factors = {}
  bias : ∀ bias ∈ p.bias, ∀ c ∈ e, bias.read ⟨c.row, 0, 0⟩ = .ofReal 1
  auxIn : ∀ aux ∈ p.auxIn, ∀ c ∈ e, aux.read c = .ofReal 1
  activation : p.activation = .identity ∨ p.activation = .relu

/-- Beta is finite inside the extent. -/
def BetaBounded (p : FusedProduct) (e : Extent) : Prop := ∀ c ∈ e, Bounded (p.beta.read c).re

namespace OnOnes

variable {p : FusedProduct} {e : Extent} {c : Coord}

/-! ### Cells -/

section Cells
variable (h : p.OnOnes e) (hc : c ∈ e)
include h hc

/-- **A sum of ones stays at or below the ceiling of the accumulator.** -/
theorem accumulated_eq :
    ∃ x, code x ≤ code p.accumulator.ceiling ∧ p.accumulated c = .ofReal x := by
  have hfold : ∀ ks : List Nat, (∀ k ∈ ks, k < p.a.extent.cols) →
      ∀ x, code x ≤ code p.accumulator.ceiling →
      ∃ y, code y ≤ code p.accumulator.ceiling ∧
        ks.foldl (p.accumulate c) (.ofReal x) = .ofReal y := by
    intro ks
    induction ks with
    | nil => exact fun _ x hx => ⟨x, hx, rfl⟩
    | cons k ks ih =>
      intro hks x hx
      have hk := hks k List.mem_cons_self
      have hunsigned := hx.trans p.accumulator.bounded_ceiling.unsigned
      have hstep : p.accumulate c (.ofReal x) k =
          .ofReal (p.accumulator.quantizePart (x + 1)) := by
        unfold accumulate
        rw [h.a c hc k hk, h.b c hc k hk, ComplexFloat.ofReal_one_mul bounded_one,
          ComplexFloat.ofReal_add_ofReal,
          p.accumulator.quantize_ofReal (Unsigned.add hunsigned parts_one.unsigned)]
      rw [List.foldl_cons, hstep]
      exact ih (fun k hk => hks k (List.mem_cons_of_mem _ hk)) _ (p.accumulator.code_count_le hx)
  have hzero : code 0 ≤ code p.accumulator.ceiling := Nat.zero_le _
  exact hfold _ (fun k hk => List.mem_range.mp hk) 0 hzero

theorem combination_fromOne : (p.combination c).RealFromOne (p.BetaBounded e) := by
  obtain ⟨x, hx, hacc⟩ := h.accumulated_eq hc
  obtain ⟨y, hy, hbeta⟩ := h.beta c hc
  have hbounded : Bounded x := hx.trans p.accumulator.bounded_ceiling
  have hone : ((ComplexFloat.ofReal 1).scale 1).scale 1 = .ofReal 1 := by decide
  have hscale : (ComplexFloat.ofReal y).scale 1 = .ofReal y := by
    have hzero : (0 * 1 : Float) = 0 := by decide
    show (⟨y * 1, 0 * 1⟩ : ComplexFloat) = ⟨y, 0⟩
    rw [hy.unsigned.mul_one_eq, hzero]
  have ha : p.factors.a = 1 := congrArg ScaleFactors.a h.factors_eq
  have hb : p.factors.b = 1 := congrArg ScaleFactors.b h.factors_eq
  have hc' : p.factors.c = 1 := congrArg ScaleFactors.c h.factors_eq
  unfold combination
  rw [h.alpha c hc, hacc, hbeta, h.c c hc, ha, hb, hc', hone, hscale,
    ComplexFloat.ofReal_one_mul hbounded]
  have hterm := ComplexFloat.realFromOne_mul_one hy
  refine RealFromOne.add_left ⟨hterm.re, fun hfinite => hterm.im ?_⟩ hbounded.unsigned
  have hread := hfinite c hc
  rwa [hbeta] at hread

theorem pre_fromOne : (p.cell c).pre.RealFromOne (p.BetaBounded e) := by
  have hcombination := h.combination_fromOne hc
  show (p.biased c).RealFromOne _
  unfold biased
  cases hbias : p.bias with
  | none => exact hcombination
  | some bias =>
    show (p.combination c + bias.read ⟨c.row, 0, 0⟩).RealFromOne _
    rw [h.bias bias hbias c hc]
    exact hcombination.add_one

/-- **The result of a cell has a real part from one on.** -/
theorem result_fromOne : (p.cell c).result.RealFromOne (p.BetaBounded e) := by
  have hpre := h.pre_fromOne hc
  show (p.finish c (p.cell c).pre).RealFromOne _
  unfold finish
  cases haux : p.auxIn with
  | none => exact Activation.apply_fromOne h.activation hpre
  | some aux =>
    show ((p.cell c).pre.scale (p.activation.derivative (aux.read c).re)).RealFromOne _
    rw [h.auxIn aux haux c hc, show (ComplexFloat.ofReal 1).re = 1 from rfl,
      Activation.derivative_one h.activation]
    exact hpre.scale_one

theorem product_fromOne : (p.product (p.cell c)).RealFromOne (p.BetaBounded e) := by
  have hresult := h.result_fromOne hc
  have hfactors := h.factors_eq
  unfold product
  unfold factors at hfactors
  cases hscale : p.scale with
  | none => exact hresult
  | some factors =>
    rw [hscale] at hfactors
    have hd : factors.d = 1 := congrArg ScaleFactors.d hfactors
    show ((p.cell c).result.scale factors.d).RealFromOne _
    rw [hd]
    exact hresult.scale_one

theorem saved_fromOne : (p.saved (p.cell c)).RealFromOne (p.BetaBounded e) := by
  unfold saved
  rw [h.factors_eq]
  exact (h.pre_fromOne hc).scale_one

end Cells

/-! ### Outputs -/

section Outputs
variable {o : Outputs Tensor} (h : p.OnOnes e)
include h

theorem holdsFromOne_d (he : o.d.extent = e) (hcov : o.d.Covers o.d.extent)
    (hsep : o.d.layout.Separates) (hfinite : o.d.type.isComplex = true → p.BetaBounded e) :
    (p.apply o).d.HoldsFromOne := by
  subst he
  exact (store_cells_overwrites rfl hcov hsep p.product).holdsFromOne
    (fun c hc => (h.product_fromOne hc).re)
    fun hcomplex c hc => (h.product_fromOne hc).im (hfinite hcomplex)

theorem holdsFromOne_aux {t : Tensor} (he : t.extent = e) (hcov : t.Covers t.extent)
    (hsep : t.layout.Separates) (hfinite : t.type.isComplex = true → p.BetaBounded e) :
    (store t p.saved (p.cells e)).HoldsFromOne := by
  subst he
  exact (store_cells_overwrites rfl hcov hsep p.saved).holdsFromOne
    (fun c hc => (h.saved_fromOne hc).re)
    fun hcomplex c hc => (h.saved_fromOne hc).im (hfinite hcomplex)

/-- The sum of the results in a row, which is not empty. -/
theorem rowSum_fromOne {row : Nat} (hrow : row < e.rows) (hcols : 0 < e.cols)
    (hbatch : 0 < e.batch) : (rowSum row (p.cells e)).RealFromOne (p.BetaBounded e) := by
  refine RealFromOne.sum (fun cell hcell => ?_) (List.ne_nil_of_mem (a := p.cell ⟨row, 0, 0⟩) ?_)
  · obtain ⟨c, hc, rfl⟩ := List.mem_map.mp (List.mem_filter.mp hcell).1
    exact h.result_fromOne (Extent.mem_coords.mp hc)
  · refine List.mem_filter.mpr ⟨List.mem_map.mpr ⟨⟨row, 0, 0⟩, ?_, rfl⟩, ?_⟩
    · exact Extent.mem_coords.mpr ⟨hrow, hcols, hbatch⟩
    · exact beq_self_eq_true row

end Outputs

end OnOnes

/-- **The gradient holds numbers from one on after a backward pass**, from zeros. -/
theorem OnOnes.holdsFromOne_gradient {p : FusedProduct} {e : Extent} (h : p.OnOnes e)
    (hin : p.auxIn.isSome = true) (hcols : 0 < e.cols) (hbatch : 0 < e.batch) {name : String}
    {type : ElementType} (hfinite : type.isComplex = true → p.BetaBounded e) :
    ((List.range e.rows).foldl (p.addGradient (p.cells e))
      (.zeros name type (.vector e.rows))).HoldsFromOne := by
  set t := Tensor.zeros name type (.vector e.rows) with ht
  have hlayout := (p.alike_addGradients (p.cells e) (List.range e.rows) t).layout_eq
  have hstores : ((List.range e.rows).foldl (p.addGradient (p.cells e)) t).Stores t
      (rowCoords e.rows) fun c => t.read c + p.rowGradient e c.row := by
    refine p.addGradients_stores ?_ fun row _ row' _ heq => ?_
    · exact (Tensor.size_zeros name type (.vector e.rows)).ge
    · simpa only [ht, Tensor.zeros, Layout.offset_vector] using heq
  intro c hc
  have hrow : c.row < e.rows := by
    have hextent : c ∈ (Layout.vector e.rows).extent := by
      have hc' : c ∈ (Tensor.layout _).extent := hc
      rwa [hlayout] at hc'
    exact hextent.1
  have hzero : t.read ⟨c.row, 0, 0⟩ = .ofReal 0 := Tensor.get_zeros _ _ _ _
  have hsum : p.rowGradient e c.row = rowSum c.row (p.cells e) := by
    rw [← p.gradient_cells hrow]
    exact if_pos hin
  have hread : ((List.range e.rows).foldl (p.addGradient (p.cells e)) t).read c =
      type.quantize (.ofReal 0 + rowSum c.row (p.cells e)) := by
    have hfirst : t.layout.offset c = t.layout.offset ⟨c.row, 0, 0⟩ := by
      simp only [ht, Tensor.zeros, Layout.offset_vector]
    have hvalue := hstores.read_eq (mem_rowCoords.mpr ⟨c.row, hrow, rfl⟩)
    rw [hzero, hsum] at hvalue
    unfold Tensor.read at hvalue ⊢
    rw [hlayout] at hvalue ⊢
    rw [hfirst]
    exact hvalue
  have hone := (h.rowSum_fromOne hrow hcols hbatch).add_left parts_zero.unsigned
  rw [hread]
  exact type.exists_quantize_eq hone.re fun hcomplex => hone.im (hfinite hcomplex)

end FusedProduct

end FusedGemm
