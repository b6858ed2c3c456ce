import FusedGemm.Proofs.Gemm.Elementwise
import FusedGemm.Proofs.Trial.Reloading

/-!
# The storage that a trial touches

The operands of a materialized case have the extents of its problem and storage for all of them, and
so has what a kernel loads from the arguments, whatever the device holds.  Both the product of the
reference and that of the kernel are thus shaped (`Materialized.shaped` and
`Materialized.shaped_load`), which is to say that evaluating them touches nothing outside the
storage.
-/

namespace FusedGemm

theorem Tensor.Compact.covers {t : Tensor} (h : t.Compact) {e : Extent} (he : t.extent = e) :
    t.Covers e := by
  subst he
  exact h.size_eq.ge

/-! ### The shapes of the operands -/

namespace Materialized

variable {config : Config} {p : Problem} {x y : Float} {before placed device : Device} {case : Case}
  {channel : Channel} {staged : Staged} {launch : Launch} {loaded : LoadedProduct}

theorem output_shape (h : Materialized config p x y before case placed)
    (hs : case.operands.outputs.get? channel = some staged) :
    staged.host.extent = channel.extent p ∧ staged.host.layout.Separates := by
  obtain ⟨name, layout, halike, -, hseparates, hextent, -⟩ := h.exists_layout hs
  unfold Tensor.extent
  rw [halike.layout_eq]
  exact ⟨hextent, hseparates⟩

/-- The reference has no outputs but those of the case. -/
theorem exists_output_of_reference (h : Materialized config p x y before case placed) {t : Tensor}
    (ht : case.reference.get? channel = some t) :
    ∃ staged, case.operands.outputs.get? channel = some staged ∧ staged.host.Alike t := by
  cases hs : case.operands.outputs.get? channel with
  | some staged =>
    obtain ⟨t', ht', halike⟩ := h.alike_reference hs
    obtain rfl : t = t' := Option.some.inj (ht.symm.trans ht')
    exact ⟨staged, rfl, halike⟩
  | none =>
    have hne : channel ≠ .d := by
      rintro rfl
      cases hs
    rw [h.reference_eq, Config.referenceOutputs, Outputs.get?_set_of_ne hne.symm,
      Outputs.get?_map, hs] at ht
    cases ht

/-! ### The reference -/

theorem covers_scalarSource (h : Materialized config p x y before case placed) {n : Nat}
    {name : String} (hn : config.scalarCount p = .ok n)
    (halike : (Tensor.zeros name config.typeScalar (.vector n)).Alike staged.host) :
    (case.scalarSource staged.host).Covers p.outputExtent := by
  unfold Case.scalarSource
  split_ifs
  · show (case.scalarView.withExtent p.outputExtent).span ≤ staged.host.codes.size
    have hview : case.scalarView.withExtent p.outputExtent = case.scalarView := by
      rw [h.scalarView_eq]
      rfl
    rw [hview]
    rcases Nat.eq_zero_or_pos p.outputExtent.count with hzero | hpos
    · have hspan : case.scalarView.span = 0 := by
        rw [h.scalarView_eq]
        exact Layout.span_eq_zero_iff.mpr hzero
      omega
    · exact (h.span_scalarView hn halike hpos).le
  · trivial

/-- **The reference touches nothing outside the storage.** -/
theorem shaped (h : Materialized config p x y before case placed) :
    FusedProduct.Shaped case.fusedProduct case.reference p.m p.n p.k p.batch := by
  have houtput : ∀ (channel : Channel) (t : Tensor), case.reference.get? channel = some t →
      t.extent = channel.extent p ∧ t.Covers (channel.extent p) ∧ t.layout.Separates := by
    intro channel t ht
    obtain ⟨staged, hs, halike⟩ := h.exists_output_of_reference ht
    obtain ⟨hextent, hseparates⟩ := h.output_shape hs
    have he : t.extent = channel.extent p := halike.extent_eq.trans hextent
    have hcompact := (h.output hs).1.of_alike halike
    exact ⟨he, hcompact.covers he, by rw [halike.layout_eq]; exact hseparates⟩
  have hd : case.reference.get? .d = some case.reference.d := rfl
  have hbias : ∀ t ∈ case.operands.bias.map Staged.host, t.Covers ⟨p.m, 1, 1⟩ := by
    intro t ht
    obtain ⟨staged, hs, rfl⟩ := Option.map_eq_some_iff.mp ht
    exact (h.bias hs).1.covers ((h.bias_packed hs).extent_eq)
  have hauxIn : ∀ t ∈ case.operands.auxIn.map Staged.host,
      t.extent = p.outputExtent ∧ t.Covers t.extent := by
    intro t ht
    obtain ⟨staged, hs, rfl⟩ := Option.map_eq_some_iff.mp ht
    exact ⟨(h.auxIn_packed hs).extent_eq, (h.auxIn hs).1.covers rfl⟩
  obtain ⟨n, hn, halike, -⟩ := h.alpha
  obtain ⟨n', hn', halike', -⟩ := h.beta
  exact {
    extent_a := h.left.1.extent_eq
    extent_b := h.right.1.extent_eq
    extent_c := h.addend.1.extent_eq
    extent_d := (houtput .d _ hd).1
    extent_auxIn := fun t ht => (hauxIn t ht).1
    extent_aux := fun t ht => (houtput .aux t ht).1
    covers_a := h.left.1.compact.covers rfl
    covers_b := h.right.1.compact.covers rfl
    covers_c := h.addend.1.compact.covers rfl
    covers_d := (houtput .d _ hd).1 ▸ (houtput .d _ hd).2.1
    covers_auxIn := fun t ht => (hauxIn t ht).2
    covers_aux := fun t ht => by
      obtain ⟨he, hcovers, -⟩ := houtput .aux t ht
      exact he ▸ hcovers
    covers_alpha := h.covers_scalarSource hn halike
    covers_beta := h.covers_scalarSource hn' halike'
    covers_bias := hbias
    covers_biasGradient := fun t ht => (houtput .biasGradient t ht).2.1
    covers_absMaxD := fun t ht => (houtput .absMaxD t ht).2.1
    covers_absMaxAux := fun t ht => (houtput .absMaxAux t ht).2.1
    separates_d := (houtput .d _ hd).2.2
    separates_aux := fun t ht => (houtput .aux t ht).2.2 }

end Materialized

/-! ### What is loaded -/

/-- The tensor has the layout and as many elements as it spans. -/
structure Tensor.Spans (t : Tensor) (layout : Layout) : Prop where
  layout_eq : t.layout = layout
  size_eq : t.codes.size = layout.span

theorem Tensor.spans_zeros (name : String) (type : ElementType) (layout : Layout) :
    (zeros name type layout).Spans layout := ⟨rfl, size_zeros name type layout⟩

theorem Tensor.Spans.extent_eq {t : Tensor} {layout : Layout} (h : t.Spans layout) :
    t.extent = layout.extent := congrArg Layout.extent h.layout_eq

theorem Tensor.Spans.covers {t : Tensor} {layout : Layout} (h : t.Spans layout) {e : Extent}
    (he : layout.extent = e) : t.Covers e := by
  subst he
  show (t.layout.withExtent layout.extent).span ≤ t.codes.size
  rw [h.layout_eq, h.size_eq]
  exact le_rfl

namespace Device

variable {device : Device} {name : String} {arg : TensorArgument}

/-- Whatever is at an argument, what is loaded has storage for the argument's layout. -/
theorem spans_of_load {t : Tensor} (h : device.load name arg = .ok t) : t.Spans arg.layout := by
  unfold load at h
  dsimp only at h
  split_ifs at h
  · cases hread : device.read arg.pointer (Tensor.zeros name arg.type arg.layout).byteSize with
    | error e =>
      rw [hread] at h
      cases h
    | ok bytes =>
      rw [hread] at h
      cases h
      refine ⟨rfl, ?_⟩
      show (arg.type.ofBytes _ bytes).toArray.size = _
      rw [List.size_toArray, ElementType.length_ofBytes, Tensor.size_zeros]
  · cases h
    exact Tensor.spans_zeros name arg.type arg.layout

theorem spans_of_loadOption {x : Option TensorArgument} {y : Option Tensor}
    (h : device.loadOption name x = .ok y) :
    Option.Rel (fun (arg : TensorArgument) t => t.Spans arg.layout) x y := by
  cases x with
  | none =>
    cases h
    exact .none
  | some arg =>
    obtain ⟨t, ht, hy⟩ := exists_of_bind_eq_ok (x := device.load name arg)
      (f := fun t => .ok (some t)) h
    cases hy
    exact .some (spans_of_load ht)

theorem spans_of_loadAbsMax {stale : Bool} {x : Option TensorArgument} {y : Option Tensor}
    (h : device.loadAbsMax stale x = .ok y) :
    Option.Rel (fun (arg : TensorArgument) t => t.Spans arg.layout) x y := by
  cases x with
  | none =>
    cases h
    exact .none
  | some arg =>
    cases stale with
    | true => exact spans_of_loadOption (x := some arg) h
    | false =>
      cases h
      exact .some (Tensor.spans_zeros _ _ _)

theorem covers_of_loadScalar {arg : ScalarArgument} {source : ScalarSource} {e : Extent}
    (he : ∀ vector ∈ arg.vector, vector.layout.extent = e)
    (h : device.loadScalar arg = .ok source) : source.Covers e := by
  unfold loadScalar at h
  cases hv : arg.vector with
  | none =>
    rw [hv] at h
    cases h
    trivial
  | some vector =>
    rw [hv] at h
    obtain ⟨t, ht, hsource⟩ := exists_of_bind_eq_ok (x := device.load "scalar" vector)
      (f := fun t => .ok (ScalarSource.broadcast t)) h
    cases hsource
    exact (spans_of_load ht).covers (he vector hv)

end Device

/-- Optional tensors that span the layouts of their arguments have the extents of these. -/
theorem Tensor.covers_of_spans {e : Extent} {x : Option TensorArgument} {y : Option Tensor}
    (h : Option.Rel (fun (arg : TensorArgument) t => t.Spans arg.layout) x y)
    (he : ∀ arg ∈ x, arg.layout.extent = e) : ∀ t ∈ y, t.extent = e ∧ t.Covers e := by
  intro t ht
  cases h with
  | none => cases ht
  | @some arg t' hspans =>
    cases ht
    have hextent := he arg rfl
    exact ⟨hspans.extent_eq.trans hextent, hspans.covers hextent⟩

/-- The arguments of a launch have the extents of a problem, and no output has an element twice. -/
structure Launch.Poses (launch : Launch) (p : Problem) : Prop where
  a : launch.a.layout.extent = p.leftExtent
  b : launch.b.layout.extent = p.rightExtent
  c : launch.c.layout.extent = p.outputExtent
  alpha : ∀ vector ∈ launch.alpha.vector, vector.layout.extent = p.outputExtent
  beta : ∀ vector ∈ launch.beta.vector, vector.layout.extent = p.outputExtent
  bias : ∀ arg ∈ launch.bias, arg.layout.extent = ⟨p.m, 1, 1⟩
  auxIn : ∀ arg ∈ launch.auxIn, arg.layout.extent = p.outputExtent
  outputs : ∀ (channel : Channel) (arg : TensorArgument), launch.outputs.get? channel = some arg →
    arg.layout.extent = channel.extent p ∧ arg.layout.Separates

section Load
variable {config : Config} {p : Problem} {x y : Float} {before placed device : Device} {case : Case}
  {launch : Launch} {loaded : LoadedProduct} {stale : Bool}

theorem Materialized.poses (h : Materialized config p x y before case placed)
    (harg : case.arguments = .ok launch) : launch.Poses p := by
  obtain ⟨alpha, beta, scale, halpha, hbeta, -, rfl⟩ := Case.arguments_eq_ok harg
  have hscalar : ∀ {staged : Staged} {arg : ScalarArgument},
      Case.scalarArgument case.scalarView staged = .ok arg →
      ∀ vector ∈ arg.vector, vector.layout.extent = p.outputExtent := by
    intro staged arg hs vector hv
    obtain rfl := Case.scalarArgument_eq_ok hs
    obtain ⟨buffer, -, rfl⟩ := Option.map_eq_some_iff.mp hv
    show case.scalarView.extent = p.outputExtent
    rw [h.scalarView_eq]
    rfl
  exact {
    a := h.left.1.extent_eq
    b := h.right.1.extent_eq
    c := h.addend.1.extent_eq
    alpha := hscalar halpha
    beta := hscalar hbeta
    bias := fun arg ha => by
      obtain ⟨staged, hs, rfl⟩ := Option.map_eq_some_iff.mp ha
      exact (h.bias_packed hs).extent_eq
    auxIn := fun arg ha => by
      obtain ⟨staged, hs, rfl⟩ := Option.map_eq_some_iff.mp ha
      exact (h.auxIn_packed hs).extent_eq
    outputs := fun channel arg ha => by
      rw [Outputs.get?_map] at ha
      obtain ⟨staged, hs, rfl⟩ := Option.map_eq_some_iff.mp ha
      exact h.output_shape hs }

/-- What is loaded has the extents of its arguments, whatever the device holds. -/
theorem Launch.Poses.shaped_load (h : launch.Poses p)
    (hload : device.loadProduct stale launch = .ok loaded) :
    FusedProduct.Shaped loaded.product loaded.outputs p.m p.n p.k p.batch := by
  unfold Device.loadProduct at hload
  obtain ⟨a, ha, hload⟩ := exists_of_bind_eq_ok hload
  obtain ⟨b, hb, hload⟩ := exists_of_bind_eq_ok hload
  obtain ⟨c, hc, hload⟩ := exists_of_bind_eq_ok hload
  obtain ⟨alpha, halpha, hload⟩ := exists_of_bind_eq_ok hload
  obtain ⟨beta, hbeta, hload⟩ := exists_of_bind_eq_ok hload
  obtain ⟨factors, -, hload⟩ := exists_of_bind_eq_ok hload
  obtain ⟨bias, hbias, hload⟩ := exists_of_bind_eq_ok hload
  obtain ⟨gradient, hgradient, hload⟩ := exists_of_bind_eq_ok hload
  obtain ⟨auxIn, hauxIn, hload⟩ := exists_of_bind_eq_ok hload
  obtain ⟨absMaxD, habsMaxD, hload⟩ := exists_of_bind_eq_ok hload
  obtain ⟨absMaxAux, habsMaxAux, hload⟩ := exists_of_bind_eq_ok hload
  cases hload
  have ha' := Device.spans_of_load ha
  have hb' := Device.spans_of_load hb
  have hc' := Device.spans_of_load hc
  have hbias' := Tensor.covers_of_spans (Device.spans_of_loadOption hbias) h.bias
  have hauxIn' := Tensor.covers_of_spans (Device.spans_of_loadOption hauxIn) h.auxIn
  have hgradient' := Tensor.covers_of_spans (Device.spans_of_loadOption hgradient)
    fun arg ha => (h.outputs .biasGradient arg ha).1
  have habsMaxD' := Tensor.covers_of_spans (Device.spans_of_loadAbsMax habsMaxD)
    fun arg ha => (h.outputs .absMaxD arg ha).1
  have habsMaxAux' := Tensor.covers_of_spans (Device.spans_of_loadAbsMax habsMaxAux)
    fun arg ha => (h.outputs .absMaxAux arg ha).1
  have haux : ∀ t ∈ launch.outputs.aux.map fun arg => Tensor.zeros "Aux" arg.type arg.layout,
      t.extent = p.outputExtent ∧ t.Covers t.extent ∧ t.layout.Separates := by
    intro t ht
    obtain ⟨arg, ha, rfl⟩ := Option.map_eq_some_iff.mp ht
    obtain ⟨he, hseparates⟩ := h.outputs .aux arg ha
    exact ⟨he, (Tensor.spans_zeros _ _ _).covers rfl, hseparates⟩
  obtain ⟨hextent, hseparates⟩ := h.outputs .d launch.outputs.d rfl
  exact {
    extent_a := ha'.extent_eq.trans h.a
    extent_b := hb'.extent_eq.trans h.b
    extent_c := hc'.extent_eq.trans h.c
    extent_d := hextent
    extent_auxIn := fun t ht => (hauxIn' t ht).1
    extent_aux := fun t ht => (haux t ht).1
    covers_a := ha'.covers ha'.extent_eq.symm
    covers_b := hb'.covers hb'.extent_eq.symm
    covers_c := hc'.covers hc'.extent_eq.symm
    covers_d := (Tensor.spans_zeros _ _ _).covers rfl
    covers_auxIn := fun t ht => by
      obtain ⟨he, hcovers⟩ := hauxIn' t ht
      exact he ▸ hcovers
    covers_aux := fun t ht => (haux t ht).2.1
    covers_alpha := Device.covers_of_loadScalar h.alpha halpha
    covers_beta := Device.covers_of_loadScalar h.beta hbeta
    covers_bias := fun t ht => (hbias' t ht).2
    covers_biasGradient := fun t ht => (hgradient' t ht).2
    covers_absMaxD := fun t ht => (habsMaxD' t ht).2
    covers_absMaxAux := fun t ht => (habsMaxAux' t ht).2
    separates_d := hseparates
    separates_aux := fun t ht => (haux t ht).2.2 }

/-- **A kernel touches nothing outside the storage of what it loads**, from whichever device. -/
theorem Materialized.shaped_load (h : Materialized config p x y before case placed)
    (harg : case.arguments = .ok launch) (hload : device.loadProduct stale launch = .ok loaded) :
    FusedProduct.Shaped loaded.product loaded.outputs p.m p.n p.k p.batch :=
  (h.poses harg).shaped_load hload

end Load

end FusedGemm
