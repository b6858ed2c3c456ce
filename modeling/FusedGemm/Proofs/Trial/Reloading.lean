import FusedGemm.Gemm.Emulation
import FusedGemm.Proofs.Fusion.Broadcasting
import FusedGemm.Proofs.Gemm.FreshOutputs
import FusedGemm.Proofs.Trial.PlannedOperands

/-!
# Loading what has been staged

A device *serves* an operand if it has the bytes of the host copy at the operand's pointer.  A
kernel that loads a served operand gets the host copy back, under a name of its own
(`Served.load_argument`); of a scalar it gets the same numbers at every coordinate
(`exists_loadScalar`).  From all operands of a case it makes a product that agrees with that of
the reference (`exists_loadProduct`).
-/

namespace FusedGemm

theorem Layout.offset_origin (layout : Layout) : layout.offset .origin = 0 := by
  simp [offset, Coord.origin]

namespace Tensor

theorem ofBytes_bytes (t : Tensor) : t.type.ofBytes t.codes.size t.bytes = t.codes.toList := by
  rw [bytes, ← Array.length_toList, ElementType.ofBytes_flatMap]

/-- The bytes of a tensor can be read with any layout of its size. -/
theorem withBytes_zeros {t : Tensor} {layout : Layout} (h : layout.span = t.codes.size)
    (name : String) :
    (zeros name t.type layout).withBytes t.bytes = ⟨name, t.type, layout, t.codes⟩ := by
  have hcodes : (t.type.ofBytes (zeros name t.type layout).codes.size t.bytes).toArray =
      t.codes := by
    rw [size_zeros, h, ofBytes_bytes]
  exact congrArg (fun codes => (⟨name, t.type, layout, codes⟩ : Tensor)) hcodes

end Tensor

namespace Staged

variable {device : Device} {staged : Staged}

/-- The device has the bytes of the host copy at the operand's pointer. -/
structure Served (device : Device) (staged : Staged) : Prop where
  compact : staged.host.Compact
  fits : staged.Fits
  contents : staged.pointer ≠ .null → device.contents? staged.pointer = some staged.host.bytes

/-- The host copy read with another layout. -/
def viewed (staged : Staged) (view : Layout) : Tensor :=
  ⟨staged.host.name, staged.host.type, view, staged.host.codes⟩

/-- Only an empty operand has no place in device memory. -/
theorem Fits.pointer_eq_null_iff (h : staged.Fits) (hb : staged.buffer.isSome = true) :
    staged.pointer = .null ↔ staged.host.codes.size = 0 := by
  obtain ⟨buffer, hbuffer⟩ := Option.isSome_iff_exists.mp hb
  obtain ⟨hlength, hnull⟩ := h buffer hbuffer
  have hpointer : staged.pointer = buffer.pointer := by rw [pointer, hbuffer]; rfl
  have hsize := staged.host.type.size_pos
  rw [hpointer, hnull, hlength, Tensor.byteSize, Nat.mul_eq_zero]
  omega

/-- A served operand can be loaded with any layout of its size. -/
theorem Served.load_view (h : Served device staged) (hb : staged.buffer.isSome = true)
    (view : Layout) (hspan : 0 < view.extent.count → view.span = staged.host.codes.size)
    (name : String) :
    device.load name ⟨staged.pointer, staged.host.type, view⟩ =
      .ok (if 0 < view.extent.count then (staged.viewed view).renamed name
        else .zeros name staged.host.type view) := by
  by_cases hcount : 0 < view.extent.count
  · have hsize := hspan hcount
    have hne : staged.pointer ≠ .null := by
      rw [Ne, h.fits.pointer_eq_null_iff hb, ← hsize, Layout.span_eq_zero_iff]
      omega
    have hread : device.read staged.pointer (Tensor.zeros name staged.host.type view).byteSize =
        .ok staged.host.bytes := by
      refine Device.read_eq_ok (h.contents hne) ?_
      rw [Tensor.length_bytes, Tensor.byteSize, Tensor.byteSize, Tensor.size_zeros, hsize]
      rfl
    have hguard : (decide (0 < view.extent.count) && !staged.pointer.isNull) = true := by
      rw [Bool.and_eq_true, Bool.not_eq_true', Bool.eq_false_iff]
      exact ⟨decide_eq_true hcount, Pointer.isNull_iff.not.mpr hne⟩
    rw [if_pos hcount]
    refine (if_pos hguard).trans ?_
    dsimp only
    rw [hread]
    exact congrArg Except.ok (Tensor.withBytes_zeros hsize name)
  · rw [if_neg hcount]
    exact if_neg fun h => hcount (of_decide_eq_true (Bool.and_eq_true_iff.mp h).1)

/-- **A served operand is loaded as it is on the host.** -/
theorem Served.load_argument (h : Served device staged) (hb : staged.buffer.isSome = true)
    (name : String) : device.load name staged.argument = .ok (staged.host.renamed name) := by
  have hload := h.load_view hb staged.host.layout (fun _ => h.compact.size_eq.symm) name
  unfold argument
  rw [hload]
  split_ifs with hcount
  · rfl
  · have hspan : staged.host.layout.span = 0 := by
      rw [Layout.span_eq_zero_iff]
      omega
    have hcodes : staged.host.codes = Array.replicate staged.host.layout.span 0 := by
      rw [hspan]
      exact Array.eq_empty_of_size_eq_zero (h.compact.size_eq.trans hspan)
    unfold Tensor.zeros Tensor.renamed
    rw [← hcodes]

theorem loadOption_argument (device : Device) (x : Option Staged) (name : String)
    (h : ∀ staged, x = some staged → Served device staged ∧ staged.buffer.isSome = true) :
    device.loadOption name (x.map argument) =
      .ok ((x.map host).map fun t => t.renamed name) := by
  cases x with
  | none => rfl
  | some staged =>
    obtain ⟨hs, hb⟩ := h staged rfl
    show some <$> device.load name staged.argument = _
    rw [hs.load_argument hb name]
    rfl

end Staged

/-! ### Scalars -/

theorem Layout.span_of_pos {layout : Layout} (h : 0 < layout.extent.count) :
    layout.span = layout.offset
      ⟨layout.extent.rows - 1, layout.extent.cols - 1, layout.extent.batch - 1⟩ + 1 := by
  refine if_neg fun hempty => ?_
  rw [Extent.isEmpty_iff] at hempty
  omega

theorem Layout.span_of_stride_none {e : Extent} (h : 0 < e.count) :
    (⟨e, .none⟩ : Layout).span = 1 := by
  rw [span_of_pos h]
  rfl

section Scales
variable {ε α β : Type} {f : α → Except ε β} {s : Scales α} {s' : Scales β}

theorem Scales.related_of_mapM_eq_ok (h : s.mapM f = .ok s') :
    Scales.Related (fun x y => f x = .ok y) s s' := by
  unfold mapM at h
  obtain ⟨a, ha, h⟩ := exists_of_bind_eq_ok h
  obtain ⟨b, hb, h⟩ := exists_of_bind_eq_ok h
  obtain ⟨c, hc, h⟩ := exists_of_bind_eq_ok h
  obtain ⟨d, hd, h⟩ := exists_of_bind_eq_ok h
  cases haux : s.aux with
  | none =>
    rw [haux] at h
    cases h
    exact ⟨ha, hb, hc, hd, haux ▸ .none⟩
  | some x =>
    rw [haux] at h
    obtain ⟨aux, hx, h⟩ := exists_of_bind_eq_ok h
    cases h
    exact ⟨ha, hb, hc, hd, haux ▸ .some hx⟩

theorem Scales.mapM_eq_ok_of_related (h : Scales.Related (fun x y => f x = .ok y) s s') :
    s.mapM f = .ok s' := by
  obtain ⟨a, b, c, d, aux⟩ := s
  obtain ⟨a', b', c', d', aux'⟩ := s'
  obtain ⟨ha, hb, hc, hd, haux⟩ := h
  dsimp only at ha hb hc hd haux
  unfold mapM
  rw [ha, hb, hc, hd]
  cases haux with
  | none => rfl
  | some hx =>
    dsimp only
    rw [hx]
    rfl

end Scales

namespace Case

variable {case : Case} {device : Device} {staged : Staged} {view : Layout} {arg : ScalarArgument}

theorem scalarArgument_eq_ok (h : scalarArgument view staged = .ok arg) :
    arg = ⟨(staged.host.read .origin).re,
      staged.buffer.map fun _ => ⟨staged.pointer, staged.host.type, view⟩⟩ := by
  unfold scalarArgument Tensor.read? Tensor.get? at h
  split_ifs at h
  cases h
  rfl

/-- The numbers of a served scalar are those that the reference reads. -/
theorem exists_loadScalar (h : staged.Served device)
    (harg : scalarArgument case.scalarView staged = .ok arg)
    (hb : staged.buffer.isSome = case.config.broadcast.onDevice)
    (hspan : 0 < case.problem.outputExtent.count →
      case.scalarView.span = staged.host.codes.size) :
    ∃ source, device.loadScalar arg = .ok source ∧
      ∀ c ∈ case.problem.outputExtent, source.read c = (case.scalarSource staged.host).read c := by
  obtain rfl := scalarArgument_eq_ok harg
  unfold scalarSource
  cases hbuffer : staged.buffer with
  | none =>
    rw [hbuffer] at hb
    rw [← hb]
    exact ⟨_, rfl, fun _ _ => rfl⟩
  | some buffer =>
    have hsome : staged.buffer.isSome = true := by rw [hbuffer]; rfl
    rw [hsome] at hb
    rw [← hb]
    have hload := h.load_view hsome case.scalarView hspan "scalar"
    refine ⟨.broadcast (if 0 < case.scalarView.extent.count then
      (staged.viewed case.scalarView).renamed "scalar"
      else .zeros "scalar" staged.host.type case.scalarView), ?_, fun c hc => ?_⟩
    · show ScalarSource.broadcast <$> device.load "scalar" _ = _
      rw [hload]
      rfl
    · have hcount : 0 < case.scalarView.extent.count := Extent.count_pos_of_mem hc
      rw [if_pos hcount]
      rfl

/-- The number of a served scale factor is the one that the reference reads. -/
theorem loadFactor_of_served (h : staged.Served device) (hsize : staged.host.codes.size = 1)
    (harg : scalarArgument case.factorView staged = .ok arg) :
    device.loadFactor arg = .ok (factorOf staged) := by
  obtain rfl := scalarArgument_eq_ok harg
  cases hbuffer : staged.buffer with
  | none => rfl
  | some buffer =>
    have hsome : staged.buffer.isSome = true := by rw [hbuffer]; rfl
    have hload := h.load_view hsome case.factorView (fun hcount => by
      rw [hsize]
      exact Layout.span_of_stride_none hcount) "scalar"
    have hfactor : staged.host.read .origin = staged.host.get 0 := by
      rw [Tensor.read, Layout.offset_origin]
    show (device.load "scalar" ⟨staged.pointer, staged.host.type, case.factorView⟩ >>= fun t =>
      pure (if 0 < t.count then (t.get 0).re else (staged.host.read .origin).re)) = _
    rw [hload, factorOf, hfactor]
    by_cases hcount : 0 < case.factorView.extent.count
    · rw [if_pos hcount]
      exact congrArg Except.ok (if_pos hcount)
    · rw [if_neg hcount]
      exact congrArg Except.ok (if_neg hcount)

theorem loadFactors_of_served (device : Device) {args : Option (Scales ScalarArgument)}
    (harg : case.operands.scale.mapM (Scales.mapM (scalarArgument case.factorView)) = .ok args)
    (h : ∀ s, case.operands.scale = some s → ∀ staged ∈ s.toList,
      staged.Served device ∧ staged.host.codes.size = 1) :
    device.loadFactors args = .ok case.factors := by
  unfold factors
  cases hs : case.operands.scale with
  | none =>
    rw [hs] at harg
    cases harg
    rfl
  | some s =>
    rw [hs] at harg
    obtain ⟨y, hy, hargs⟩ := exists_of_bind_eq_ok harg
    cases hargs
    have hrel := Scales.related_of_mapM_eq_ok hy
    have hone : ∀ staged arg, staged ∈ s.toList →
        scalarArgument case.factorView staged = .ok arg →
        device.loadFactor arg = .ok (factorOf staged) := fun staged arg hmem harg =>
      loadFactor_of_served (h s hs staged hmem).1 (h s hs staged hmem).2 harg
    have hfactors : y.mapM device.loadFactor =
        .ok ⟨factorOf s.a, factorOf s.b, factorOf s.c, factorOf s.d, s.aux.map factorOf⟩ := by
      have hmem : s.a ∈ s.toList ∧ s.b ∈ s.toList ∧ s.c ∈ s.toList ∧ s.d ∈ s.toList := by
        simp [Scales.toList]
      refine Scales.mapM_eq_ok_of_related ⟨hone _ _ hmem.1 hrel.a, hone _ _ hmem.2.1 hrel.b,
        hone _ _ hmem.2.2.1 hrel.c, hone _ _ hmem.2.2.2 hrel.d, ?_⟩
      refine rel_map_right (fun staged hx arg harg => hone staged arg ?_ harg) hrel.aux
      simp [Scales.toList, hx]
    show y.mapM device.loadFactor >>= _ = _
    rw [hfactors]
    rfl

end Case

/-! ### The whole product -/

/-- The device has the bytes of all operands of the case. -/
def Case.Resident (case : Case) (device : Device) : Prop :=
  ∀ staged ∈ case.operands.toList, staged.Fits ∧
    (staged.pointer ≠ .null → device.contents? staged.pointer = some staged.host.bytes)

theorem Case.Resident.served {case : Case} {device : Device} (h : case.Resident device)
    (staged : Staged) (hmem : staged ∈ case.operands.toList) (hcompact : staged.host.Compact) :
    staged.Served device :=
  ⟨hcompact, (h staged hmem).1, (h staged hmem).2⟩

section Product
variable {config : Config} {p : Problem} {x y : Float} {before placed device : Device} {case : Case}
  {launch : Launch}

/-- What a kernel starts a running maximum from: from what it finds if it is *stale*, and else from
zero. -/
def Staged.startMax (stale : Bool) (staged : Staged) : Tensor :=
  if stale then staged.host.renamed "abs_max"
  else .zeros "abs_max" staged.host.type staged.host.layout

theorem Staged.loadAbsMax_argument (device : Device) (stale : Bool) (x : Option Staged)
    (h : ∀ staged, x = some staged → Served device staged ∧ staged.buffer.isSome = true) :
    device.loadAbsMax stale (x.map argument) = .ok (x.map (startMax stale)) := by
  cases x with
  | none => rfl
  | some staged =>
    cases stale with
    | false => rfl
    | true =>
      obtain ⟨hs, hb⟩ := h staged rfl
      show some <$> device.load "abs_max" staged.argument = _
      rw [hs.load_argument hb]
      rfl

/-- What the outputs start from: from those of the reference, but for the running maxima of a stale
kernel, which start from the host copies. -/
def Case.start (case : Case) (stale : Bool) : Outputs Tensor :=
  if stale then
    { case.reference with
      absMaxD := case.outputs.absMaxD
      absMaxAux := case.outputs.absMaxAux }
  else case.reference

theorem Case.get?_start_of_ne (case : Case) (stale : Bool) {channel : Channel}
    (hD : channel ≠ .absMaxD) (hAux : channel ≠ .absMaxAux) :
    (case.start stale).get? channel = case.reference.get? channel := by
  cases stale with
  | false => rfl
  | true => cases channel <;> first | rfl | exact absurd rfl hD | exact absurd rfl hAux

/-- The reference restarts from what a kernel starts from, but for running maxima that are kept. -/
theorem Materialized.restarts (h : Materialized config p x y before case placed) (stale : Bool) :
    FusedProduct.Restarts
      { d := .zeros "D" case.operands.outputs.d.host.type case.operands.outputs.d.host.layout
        absMaxD := case.operands.outputs.absMaxD.map (Staged.startMax stale)
        biasGradient := (case.operands.outputs.biasGradient.map Staged.host).map fun t =>
          t.renamed "dBias"
        aux := (case.operands.outputs.aux.map Staged.argument).map fun arg =>
          .zeros "Aux" arg.type arg.layout
        absMaxAux := case.operands.outputs.absMaxAux.map (Staged.startMax stale) }
      (case.start stale) where
  compact := Tensor.compact_zeros h.product.compact.dense _ _
  alike := by
    have hd : (case.start stale).d = case.reference.d := by cases stale <;> rfl
    rw [hd, h.reference_eq]
    have hblank := Tensor.alike_zeros "D" ("reference " ++ case.operands.outputs.d.host.name)
      case.operands.outputs.d.host.type case.operands.outputs.d.host.layout
    exact hblank.trans (Tensor.alike_copyFrom _ _)
  renames channel hchannel := by
    have hgradient : ∀ staged, case.operands.outputs.biasGradient = some staged →
        ∃ name, Tensor.zeros ("reference " ++ staged.host.name) staged.host.type
          staged.host.layout = (staged.host.renamed "dBias").renamed name := by
      intro staged hs
      rw [h.biasGradient hs]
      exact ⟨_, rfl⟩
    cases channel with
    | d => exact absurd rfl hchannel
    | absMaxD | absMaxAux =>
      unfold Case.start
      rw [h.reference_eq]
      cases stale with
      | false => exact rel_map_both fun staged _ => ⟨_, rfl⟩
      | true => exact rel_map_both fun staged _ => ⟨staged.host.name, rfl⟩
    | biasGradient =>
      rw [case.get?_start_of_ne stale (by decide) (by decide), h.reference_eq]
      show Option.Rel _ (Option.map _ (Option.map _ _)) _
      rw [Option.map_map]
      exact rel_map_both hgradient
    | aux =>
      rw [case.get?_start_of_ne stale (by decide) (by decide), h.reference_eq]
      show Option.Rel _ (Option.map _ (Option.map _ _)) _
      rw [Option.map_map]
      exact rel_map_both fun staged _ => ⟨_, rfl⟩

theorem Materialized.scalarView_eq (h : Materialized config p x y before case placed) :
    case.scalarView = config.broadcast.layout p := by
  rw [Case.scalarView, h.case_eq]

/-- Over an output that is not empty, the view of alpha or beta spans what is stored. -/
theorem Materialized.span_scalarView (h : Materialized config p x y before case placed)
    {staged : Staged} {n : Nat} {name : String} (hn : config.scalarCount p = .ok n)
    (halike : (Tensor.zeros name config.typeScalar (.vector n)).Alike staged.host)
    (hpos : 0 < p.outputExtent.count) : case.scalarView.span = staged.host.codes.size := by
  rw [h.scalarView_eq, Tensor.size_of_alike_vector halike]
  exact Broadcast.span_layout (Config.length?_of_scalarCount hn) hpos

theorem Materialized.exists_loadScalar (h : Materialized config p x y before case placed)
    (hr : case.Resident device) {staged : Staged} (hmem : staged ∈ case.operands.toList) {n : Nat}
    {name : String} {arg : ScalarArgument} (hn : config.scalarCount p = .ok n)
    (halike : (Tensor.zeros name config.typeScalar (.vector n)).Alike staged.host)
    (hb : staged.buffer.isSome = config.broadcast.onDevice)
    (harg : Case.scalarArgument case.scalarView staged = .ok arg) :
    ∃ source, device.loadScalar arg = .ok source ∧
      ∀ c ∈ p.outputExtent, source.read c = (case.scalarSource staged.host).read c := by
  have hconfig : case.config = config := by rw [h.case_eq]
  have hproblem : case.problem = p := by rw [h.case_eq]
  have hcompact := (Tensor.packed_vector name config.typeScalar n).compact.of_alike halike
  have hload := Case.exists_loadScalar (hr.served staged hmem hcompact) harg (by rw [hb, hconfig])
    (hproblem ▸ h.span_scalarView hn halike)
  rwa [hproblem] at hload

/-- **From the operands of a case a kernel loads the product of the reference.** -/
theorem exists_loadProduct (h : Materialized config p x y before case placed)
    (hr : case.Resident device) (harg : case.arguments = .ok launch) (stale : Bool) :
    ∃ loaded, device.loadProduct stale launch = .ok loaded ∧
      loaded.product.Agrees case.fusedProduct p.outputExtent ∧
      FusedProduct.Restarts loaded.outputs (case.start stale) := by
  obtain ⟨alpha, beta, scale, halpha, hbeta, hscale, rfl⟩ := Case.arguments_eq_ok harg
  have ha := (hr.served case.operands.a (by simp [Operands.toList])
    h.left.1.compact).load_argument h.left.2 "A"
  have hb := (hr.served case.operands.b (by simp [Operands.toList])
    h.right.1.compact).load_argument h.right.2 "B"
  have hc := (hr.served case.operands.c (by simp [Operands.toList])
    h.addend.1.compact).load_argument h.addend.2 "C"
  have hfactors := Case.loadFactors_of_served device hscale fun s hs staged hmem =>
    ⟨hr.served staged (by simp [Operands.toList, hs, hmem]) (h.factor hs hmem).1,
      (h.factor hs hmem).2⟩
  have hbias := Staged.loadOption_argument device case.operands.bias "bias" fun staged hs =>
    ⟨hr.served staged (by simp [Operands.toList, hs]) (h.bias hs).1, (h.bias hs).2⟩
  have hauxIn := Staged.loadOption_argument device case.operands.auxIn "Aux" fun staged hs =>
    ⟨hr.served staged (by simp [Operands.toList, hs]) (h.auxIn hs).1, (h.auxIn hs).2⟩
  have houtput : ∀ {channel staged}, case.operands.outputs.get? channel = some staged →
      staged.Served device ∧ staged.buffer.isSome = true := fun hs =>
    ⟨hr.served _ (Operands.mem_toList_of_output hs) (h.output hs).1, (h.output hs).2.1⟩
  have hgradient := Staged.loadOption_argument device case.operands.outputs.biasGradient "dBias"
    fun _ => @houtput .biasGradient _
  have habsMaxD := Staged.loadAbsMax_argument device stale case.operands.outputs.absMaxD
    fun _ => @houtput .absMaxD _
  have habsMaxAux := Staged.loadAbsMax_argument device stale case.operands.outputs.absMaxAux
    fun _ => @houtput .absMaxAux _
  obtain ⟨n, hn, halike, hbuffer⟩ := h.alpha
  obtain ⟨alphaSource, hloadAlpha, hreadAlpha⟩ := h.exists_loadScalar hr
    (by simp [Operands.toList]) hn halike hbuffer halpha
  obtain ⟨n', hn', halike', hbuffer'⟩ := h.beta
  obtain ⟨betaSource, hloadBeta, hreadBeta⟩ := h.exists_loadScalar hr
    (by simp [Operands.toList]) hn' halike' hbuffer' hbeta
  refine ⟨⟨case.fusedProduct.relabelled alphaSource betaSource, _⟩, ?_,
    case.fusedProduct.agrees_relabelled hreadAlpha hreadBeta, h.restarts stale⟩
  simp only [Device.loadProduct, ha, hb, hc, hloadAlpha, hloadBeta, hfactors, hbias, hauxIn,
    Outputs.map, hgradient, habsMaxD, habsMaxAux]
  rfl

end Product

end FusedGemm
