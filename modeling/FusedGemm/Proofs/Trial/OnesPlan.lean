import FusedGemm.Proofs.Gemm.Ones
import FusedGemm.Proofs.Trial.Coverage

/-!
# Trials of ones

Where everything is filled with ones and alpha and beta are one, the reference of a case reads ones
(`Materialized.onOnes`), but for beta in device memory, which grows from batch to batch.  Only in the
16-bit type with five exponent bits does it ever become infinite, from the batch 65519 on
(`Config.BetaOverflows`).
-/

namespace FusedGemm

/-- A ramp goes up by one from row to row. -/
theorem Tensor.get_ramp {t : Tensor} {n : Nat} (hlayout : t.layout = .vector n)
    (hsize : t.codes.size = n) {i : Nat} (hi : i < n) (x : Float) :
    (t.ramp x).get i = t.type.quantize (.ofReal (x + Float.ofNat i)) := by
  have hoffset : ∀ c : Coord, t.layout.offset c = c.row := by
    intro c
    rw [hlayout, Layout.offset_vector]
  have hrows : t.extent.rows = n := by
    unfold Tensor.extent
    rw [hlayout]
    rfl
  have hcov : t.Covers ⟨n, 1, 1⟩ := by
    unfold Covers
    rw [hlayout, hsize]
    exact (Layout.span_vector n).le
  have hstores : (t.ramp x).Stores t (rowCoords n) fun c => .ofReal (x + Float.ofNat c.row) := by
    rw [ramp, hrows]
    exact writeAll_rows_stores hcov (fun row _ row' _ heq => by rwa [hoffset, hoffset] at heq) _
  have hread : (t.ramp x).read ⟨i, 0, 0⟩ = t.type.quantize (.ofReal (x + Float.ofNat i)) :=
    hstores.read_eq (mem_rowCoords.mpr ⟨i, hi, rfl⟩)
  rw [← hread]
  unfold Tensor.read
  rw [(t.alike_ramp x).layout_eq, hoffset]

/-- A matrix that is filled with ones holds ones. -/
theorem Recipe.ones_of_eq_ok {r : Recipe} (hfill : r.fill = .ones) {t : Tensor}
    (ht : r.tensor = .ok t) : t.Ones := by
  obtain ⟨u, -, rfl⟩ := exists_of_eq_ok ht
  rw [hfill]
  exact (Tensor.ones_fillFrom u r.seed).withLeadingOne

namespace Config

/-- All operands are filled with ones. -/
structure FillsOnes (config : Config) : Prop where
  a : config.fillA = .ones
  b : config.fillB = .ones
  c : config.fillC = .ones
  scale : config.fillScale = .ones
  bias : config.fillBias = .ones

/-- Beta grows from batch to batch, to infinity in the last one. -/
def BetaOverflows (config : Config) (p : Problem) : Prop :=
  config.scalarLocation = .device ∧ config.fusion.rowScale = false ∧ config.typeScalar = .f16 ∧
    65520 ≤ p.batch

/-- Numbers with an imaginary part are written by the epilogue. -/
def WritesComplex (config : Config) : Prop :=
  config.typeD.isComplex = true ∨ config.fusion.auxOut = true ∧ config.typeAux.isComplex = true ∨
    config.fusion.biasGradient = true ∧ config.typeBias.isComplex = true

instance (config : Config) (p : Problem) : Decidable (config.BetaOverflows p) :=
  inferInstanceAs (Decidable (_ ∧ _))

instance (config : Config) : Decidable config.WritesComplex :=
  inferInstanceAs (Decidable (_ ∨ _))

variable {config : Config} {p : Problem} {t : Tensor}

/-! ### Contents -/

section Contents
variable (h : config.FillsOnes)
include h

theorem ones_auxInput (ht : config.auxInput p = .ok t) : t.Ones := by
  obtain ⟨u, -, ht⟩ := exists_of_bind_eq_ok ht
  cases ht
  rw [h.c]
  exact Tensor.ones_fillFrom u _

theorem ones_scaleFactor (name : String) (offset : UInt64) :
    (config.scaleFactor name offset).Ones := by
  unfold scaleFactor
  rw [h.scale]
  exact Tensor.ones_fillFrom _ _

theorem ones_biasTensor (p : Problem) : (config.biasTensor p).Ones := by
  unfold biasTensor
  rw [h.bias]
  exact Tensor.ones_fillFrom _ _

theorem ones_alphaTensor (ht : config.alphaTensor p 1 = .ok t) : t.Ones := by
  obtain ⟨n, -, ht⟩ := exists_of_bind_eq_ok ht
  dsimp only at ht
  split_ifs at ht
  · cases ht
    rw [h.scale]
    exact Tensor.ones_fillFrom _ _
  · cases ht
    exact Tensor.ones_fill _

end Contents

/-! ### Beta -/

/-- Where alpha and beta are in device memory but not drawn, there is one of each for a batch. -/
theorem broadcast_eq_perBatch
    (hrow : ¬ (config.capabilities.rowScale && config.broadcast.onDevice) = true)
    (hdevice : config.broadcast.onDevice = true) : config.fusion.rowScale = false ∧
      config.scalarLocation = .device ∧ config.broadcast = .perBatch := by
  have hscale : config.fusion.rowScale = false := by
    rw [hdevice, Bool.and_true, Bool.not_eq_true] at hrow
    exact hrow
  have hbroadcast : config.broadcast =
      Broadcast.select false config.scalarLocation config.vectorScale := by
    rw [← hscale]
    rfl
  cases hlocation : config.scalarLocation with
  | device =>
    rw [hlocation] at hbroadcast
    exact ⟨hscale, rfl, hbroadcast⟩
  | host =>
    rw [hlocation] at hbroadcast
    rw [hbroadcast] at hdevice
    cases hdevice

/-- **Beta is from one on, and finite unless it overflows.** -/
theorem exists_get_betaTensor (h : config.FillsOnes) (ht : config.betaTensor p 1 = .ok t) :
    ∀ i < t.codes.size,
      ∃ x, (FromOne x ∧ (¬ config.BetaOverflows p → Bounded x)) ∧ t.get i = .ofReal x := by
  have hones : t.Ones → ∀ i < t.codes.size,
      ∃ x, (FromOne x ∧ (¬ config.BetaOverflows p → Bounded x)) ∧ t.get i = .ofReal x :=
    fun hones i hi => ⟨1, ⟨fromOne_one, fun _ => bounded_one⟩, hones i hi⟩
  obtain ⟨n, hn, ht⟩ := exists_of_bind_eq_ok ht
  dsimp only at ht
  split_ifs at ht with hrow hzero hdevice
  · exact absurd hzero (by decide)
  · cases ht
    rw [h.scale] at hones ⊢
    exact hones (Tensor.ones_fillFrom _ _)
  · cases ht
    obtain ⟨hscale, hlocation, hbroadcast⟩ := broadcast_eq_perBatch hrow hdevice
    have hbatch : n = p.batch := by
      have hlength := length?_of_scalarCount hn
      rw [hbroadcast] at hlength
      exact (Option.some.inj hlength).symm
    intro i hi
    have hi' : i < n := by rwa [(Tensor.alike_ramp _ 1).size_eq, Tensor.size_zeros,
      Layout.span_vector] at hi
    rw [Tensor.get_ramp rfl (by rw [Tensor.size_zeros, Layout.span_vector]) hi']
    have hsum : FromOne (1 + Float.ofNat i) := fromOne_one.add (unsigned_ofNat i)
    refine ⟨_, ⟨hsum.quantizePart config.typeScalar, fun hfinite => ?_⟩,
      config.typeScalar.quantize_ofReal hsum.unsigned⟩
    refine config.typeScalar.bounded_quantizePart_succ (hi'.trans (scalarCount_lt hn))
      fun htype => ?_
    by_contra hlarge
    exact hfinite ⟨hlocation, hscale, htype, by omega⟩
  · cases ht
    exact hones (Tensor.ones_fill _)

end Config

/-! ### The reference -/

namespace Materialized

variable {config : Config} {p : Problem} {device placed : Device} {case : Case} {x y : Float}

/-- Alpha or beta is read from what it holds, at whatever coordinate. -/
theorem exists_read_scalarSource (h : Materialized config p x y device case placed)
    {staged : Staged} {n : Nat} {name : String} (hn : config.scalarCount p = .ok n)
    (halike : (Tensor.zeros name config.typeScalar (.vector n)).Alike staged.host) {P : Float → Prop}
    (hholds : ∀ i < staged.host.codes.size, ∃ x, P x ∧ staged.host.get i = .ofReal x) {c : Coord}
    (hc : c ∈ p.outputExtent) :
    ∃ x, P x ∧ (case.scalarSource staged.host).read c = .ofReal x := by
  have hconfig : case.config = config := by rw [h.case_eq]
  unfold Case.scalarSource
  rw [hconfig]
  split_ifs with hdevice
  · refine hholds (case.scalarView.offset c) ?_
    rw [← h.span_scalarView hn halike (Extent.count_pos_of_mem hc)]
    refine Layout.offset_lt_span ?_
    rw [h.scalarView_eq]
    exact hc
  · have hone : n = 1 := by
      have hlength := Config.length?_of_scalarCount hn
      have hscalar : config.broadcast = .scalar := by
        cases hb : config.broadcast with
        | scalar => rfl
        | perBatch => exact absurd (by rw [hb]; rfl) hdevice
        | perRowPerBatch => exact absurd (by rw [hb]; rfl) hdevice
      rw [hscalar] at hlength
      exact (Option.some.inj hlength).symm
    obtain ⟨x, hx, hget⟩ := hholds 0 (by rw [Tensor.size_of_alike_vector halike]; omega)
    refine ⟨x, hx, ?_⟩
    have hread : staged.host.read .origin = .ofReal x := by
      unfold Tensor.read
      rw [halike.layout_eq]
      show staged.host.get ((Layout.vector n).offset .origin) = _
      rw [Layout.offset_vector]
      exact hget
    show ComplexFloat.ofReal (staged.host.read .origin).re = _
    rw [hread]
    rfl

section Ones
variable (h : Materialized config p 1 1 device case placed) (hones : config.FillsOnes)
include h hones

theorem ones_a : case.operands.a.host.Ones := Recipe.ones_of_eq_ok hones.a h.left_planned.1

theorem ones_b : case.operands.b.host.Ones := Recipe.ones_of_eq_ok hones.b h.right_planned.1

theorem ones_c : case.operands.c.host.Ones := Recipe.ones_of_eq_ok hones.c h.addend_planned.1

theorem ones_alpha : case.operands.alpha.host.Ones := by
  obtain ⟨placement, hok, hhost, -⟩ := h.meets.alpha
  obtain ⟨t, ht, rfl⟩ := exists_of_placement_eq_ok hok
  rw [hhost]
  exact Config.ones_alphaTensor hones ht

theorem exists_get_beta : ∀ i < case.operands.beta.host.codes.size,
    ∃ x, (FromOne x ∧ (¬ config.BetaOverflows p → Bounded x)) ∧
      case.operands.beta.host.get i = .ofReal x := by
  obtain ⟨placement, hok, hhost, -⟩ := h.meets.beta
  obtain ⟨t, ht, rfl⟩ := exists_of_placement_eq_ok hok
  rw [hhost]
  exact Config.exists_get_betaTensor hones ht

theorem ones_bias {staged : Staged} (hs : case.operands.bias = some staged) :
    staged.host.Ones := by
  rw [(h.bias_planned hs).2.1]
  exact Config.ones_biasTensor hones p

theorem ones_auxIn {staged : Staged} (hs : case.operands.auxIn = some staged) :
    staged.host.Ones :=
  Config.ones_auxInput hones (h.auxIn_planned hs).2.1

/-- All scale factors are one. -/
theorem factors_eq : case.fusedProduct.factors = {} := by
  show case.factors.getD {} = {}
  unfold Case.factors
  cases hs : case.operands.scale with
  | none => rfl
  | some s =>
    have hone : ∀ staged ∈ s.toList, Case.factorOf staged = 1 := by
      intro staged hmem
      obtain ⟨name, offset, hhost⟩ := (h.factor_host hs).2 staged hmem
      have hfactor := Config.ones_scaleFactor hones name offset
      rw [← hhost] at hfactor
      obtain ⟨name, halike⟩ := (h.factor_alike hs).2 staged hmem
      have hread : staged.host.read .origin = .ofReal 1 := by
        refine hfactor.read_eq ?_
        rw [halike.layout_eq, halike.size_eq, Tensor.size_zeros]
        exact Nat.one_pos
      unfold Case.factorOf
      rw [hread]
      rfl
    have haux : (s.aux.map Case.factorOf).getD 1 = 1 := by
      cases ha : s.aux with
      | none => rfl
      | some staged => exact hone staged (by simp [Scales.toList, ha])
    show ScaleFactors.mk _ _ _ _ _ = _
    rw [hone s.a (by simp [Scales.toList]), hone s.b (by simp [Scales.toList]),
      hone s.c (by simp [Scales.toList]), hone s.d (by simp [Scales.toList]), haux]

/-- Beta is finite unless it overflows. -/
theorem betaBounded (hfinite : ¬ config.BetaOverflows p) :
    case.fusedProduct.BetaBounded p.outputExtent := by
  intro c hc
  obtain ⟨n, hn, halike, -⟩ := h.beta
  obtain ⟨x, ⟨-, hx⟩, hread⟩ :=
    h.exists_read_scalarSource hn halike (h.exists_get_beta hones) hc
  show Bounded ((case.scalarSource case.operands.beta.host).read c).re
  rw [hread]
  exact hx hfinite

/-- **The reference reads ones.** -/
theorem onOnes (hactivation : config.activation = .identity ∨ config.activation = .relu) :
    case.fusedProduct.OnOnes p.outputExtent := by
  have hshaped := h.shaped
  have hconfig : case.config = config := by rw [h.case_eq]
  obtain ⟨n, hn, halike, -⟩ := h.alpha
  obtain ⟨n', hn', halike', -⟩ := h.beta
  exact {
    a := fun c hc k hk => (h.ones_a hones).read_eq (Tensor.offset_lt_size hshaped.covers_a (by
      rw [hshaped.extent_a] at hk ⊢
      exact ⟨hc.1, hk, hc.2.2⟩))
    b := fun c hc k hk => (h.ones_b hones).read_eq (Tensor.offset_lt_size hshaped.covers_b (by
      rw [hshaped.extent_a] at hk
      rw [hshaped.extent_b]
      exact ⟨hk, hc.2.1, hc.2.2⟩))
    c := fun c hc => (h.ones_c hones).read_eq (Tensor.offset_lt_size hshaped.covers_c (by
      rw [hshaped.extent_c]
      exact hc))
    alpha := fun c hc => by
      obtain ⟨x, rfl, hread⟩ := h.exists_read_scalarSource (P := fun x => x = 1) hn halike
        (fun i hi => ⟨1, rfl, h.ones_alpha hones i hi⟩) hc
      exact hread
    beta := fun c hc => by
      obtain ⟨x, ⟨hx, -⟩, hread⟩ :=
        h.exists_read_scalarSource hn' halike' (h.exists_get_beta hones) hc
      exact ⟨x, hx, hread⟩
    factors_eq := h.factors_eq hones
    bias := fun bias hbias c hc => by
      obtain ⟨staged, hs, rfl⟩ := Option.map_eq_some_iff.mp hbias
      refine (h.ones_bias hones hs).read_eq (Tensor.offset_lt_size ((h.bias hs).1.covers rfl) ?_)
      rw [(h.bias_packed hs).extent_eq]
      exact ⟨hc.1, Nat.one_pos, Nat.one_pos⟩
    auxIn := fun aux haux c hc => by
      obtain ⟨staged, hs, rfl⟩ := Option.map_eq_some_iff.mp haux
      refine (h.ones_auxIn hones hs).read_eq (Tensor.offset_lt_size ((h.auxIn hs).1.covers rfl) ?_)
      rw [(h.auxIn_packed hs).extent_eq]
      exact hc
    activation := by
      show case.config.activation = _ ∨ case.config.activation = _
      rwa [hconfig] }

end Ones

end Materialized

end FusedGemm
