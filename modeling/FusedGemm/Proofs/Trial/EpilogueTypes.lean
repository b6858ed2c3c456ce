import FusedGemm.Proofs.Trial.ActiveOutputs
import FusedGemm.Proofs.Trial.DeviceView

/-!
# The types in an epilogue

The tensors of an epilogue are those of its linear combination and those of its features: a bias or
its gradient, auxiliary tensors and running maxima.  Where features are declared the former have
real types, and so the sum, alpha, beta and `C` have no imaginary part.  The types of the latter are
`Config.featureTypes`, which validation does not look at: the whole epilogue is real if and only if
they are (`Case.epilogue_real`), and a complex bias gets through (`Case.epilogue_complexBias`).
-/

namespace FusedGemm

/-! ### Real tensors -/

theorem ElementType.im_decode_of_real {t : ElementType} (h : t.isComplex = false) (code : Code t) :
    (t.decode code).im = 0 := by
  rw [decode_of_real h]
  rfl

theorem Tensor.im_read_of_real {t : Tensor} (h : t.type.isComplex = false) (c : Coord) :
    (t.read c).im = 0 := t.type.im_decode_of_real h _

theorem FusedProduct.im_accumulated {p : FusedProduct} (h : p.accumulator.isComplex = false)
    (c : Coord) : (p.accumulated c).im = 0 := by
  unfold accumulated
  generalize List.range p.a.extent.cols = ks
  induction ks using List.reverseRecOn with
  | nil => rfl
  | append_singleton ks k _ =>
    rw [List.foldl_append]
    exact ElementType.im_decode_of_real h _

/-! ### Types of features -/

namespace Config

variable {config : Config} {type : ElementType}

/-- The types of the tensors that features bring into an epilogue. -/
def featureTypes (config : Config) : List ElementType :=
  (if config.capabilities.needsBias then [config.typeBias] else []) ++
    (if config.capabilities.needsAux then [config.typeAux] else []) ++
    (if config.capabilities.absMaxD || config.capabilities.absMaxAux then [config.typeAbsMax]
      else [])

theorem mem_featureTypes_iff : type ∈ config.featureTypes ↔
    config.capabilities.needsBias = true ∧ type = config.typeBias ∨
      config.capabilities.needsAux = true ∧ type = config.typeAux ∨
      (config.capabilities.absMaxD = true ∨ config.capabilities.absMaxAux = true) ∧
        type = config.typeAbsMax := by
  unfold featureTypes
  simp only [List.mem_append, List.mem_ite_nil_right, List.mem_singleton, Bool.or_eq_true,
    or_assoc]

end Config

namespace Case

variable (case : Case)

/-- The tensors of the linear combination and of the product. -/
def linearTensors : List Tensor :=
  [case.operands.c.host] ++ case.channelTensors .d ++
    [case.operands.alpha.host, case.operands.beta.host] ++
    ((case.operands.scale.map Scales.toList).getD []).map Staged.host

/-- The tensors that features bring into an epilogue. -/
def featureTensors : List Tensor :=
  (case.operands.bias.map Staged.host).toList ++ case.channelTensors .biasGradient ++
    (case.operands.auxIn.map Staged.host).toList ++ case.channelTensors .aux ++
    case.channelTensors .absMaxD ++ case.channelTensors .absMaxAux

/-- A real scalar has no imaginary part for the reference, whatever its view. -/
theorem im_scalarSource {t : Tensor} (ht : t.type.isComplex = false) (c : Coord) :
    ((case.scalarSource t).read c).im = 0 := by
  unfold scalarSource
  split_ifs
  · exact Tensor.im_read_of_real (t := ⟨t.name, t.type, case.scalarView, t.codes⟩) ht c
  · rfl

theorem epilogueTensors_eq : case.epilogueTensors = case.linearTensors ++ case.featureTensors := by
  simp only [epilogueTensors, linearTensors, featureTensors, List.append_assoc]

end Case

namespace Materialized

variable {config : Config} {p : Problem} {x y : Float} {device placed : Device} {case : Case}
  {channel : Channel} {type : ElementType} {t : Tensor}

section
variable (h : Materialized config p x y device case placed)
include h

/-- The tensors of an output have its type. -/
theorem type_of_mem_channelTensors (ht : t ∈ case.channelTensors channel) :
    config.capabilities.writes channel = true ∧ t.type = config.outputType channel := by
  unfold Case.channelTensors Case.outputs at ht
  rw [Outputs.get?_map, List.mem_append, Option.mem_toList, Option.mem_toList,
    Option.map_eq_some_iff] at ht
  rcases ht with ⟨staged, hs, rfl⟩ | ht
  · exact ⟨h.isSome_output channel ▸ Option.isSome_of_eq_some hs, h.output_type hs⟩
  · obtain ⟨staged, hs, halike⟩ := h.exists_output_of_reference ht
    exact ⟨h.isSome_output channel ▸ Option.isSome_of_eq_some hs,
      halike.type_eq.trans (h.output_type hs)⟩

theorem exists_channelTensors_iff : (∃ t ∈ case.channelTensors channel, t.type = type) ↔
    config.capabilities.writes channel = true ∧ type = config.outputType channel := by
  constructor
  · rintro ⟨t, ht, rfl⟩
    exact h.type_of_mem_channelTensors ht
  · rintro ⟨hw, rfl⟩
    rw [← h.isSome_output channel] at hw
    obtain ⟨staged, hs⟩ := Option.isSome_iff_exists.mp hw
    refine ⟨staged.host, ?_, h.output_type hs⟩
    unfold Case.channelTensors Case.outputs
    rw [Outputs.get?_map, hs]
    exact List.mem_append_left _ (List.mem_singleton_self _)

theorem exists_bias_iff : (∃ t ∈ (case.operands.bias.map Staged.host).toList, t.type = type) ↔
    config.capabilities.rowBias = true ∧ type = config.typeBias := by
  rw [← h.isSome_bias]
  cases hs : case.operands.bias with
  | none => simp
  | some staged => simp [(h.bias_packed hs).type_eq, eq_comm]

theorem exists_auxIn_iff : (∃ t ∈ (case.operands.auxIn.map Staged.host).toList, t.type = type) ↔
    config.capabilities.auxIn = true ∧ type = config.typeAux := by
  rw [← h.isSome_auxIn]
  cases hs : case.operands.auxIn with
  | none => simp
  | some staged => simp [(h.auxIn_packed hs).type_eq, eq_comm]

/-- **Features bring in tensors of their types and of no others.** -/
theorem exists_featureTensors_iff :
    (∃ t ∈ case.featureTensors, t.type = type) ↔ type ∈ config.featureTypes := by
  unfold Case.featureTensors
  simp only [List.mem_append, or_and_right, exists_or, h.exists_bias_iff, h.exists_auxIn_iff,
    h.exists_channelTensors_iff, Config.mem_featureTypes_iff, Capabilities.needsBias,
    Capabilities.needsAux, Bool.or_eq_true]
  show ((((_ ∨ config.capabilities.biasGradient = true ∧ type = config.typeBias) ∨ _) ∨
    config.capabilities.auxOut = true ∧ type = config.typeAux) ∨
    config.capabilities.absMaxD = true ∧ type = config.typeAbsMax) ∨
    config.capabilities.absMaxAux = true ∧ type = config.typeAbsMax ↔ _
  tauto

/-- The tensors of the linear combination are real where features are declared. -/
theorem linearTensors_real (hdeclares : config.fusion.declaresFeature = true)
    (ht : t ∈ case.linearTensors) : t.type.isComplex = false := by
  have htype :
      t.type ∈ [config.typeC, config.typeD, config.typeAccumulator, config.typeScalar] := by
    simp only [Case.linearTensors, List.mem_append, List.mem_cons, List.not_mem_nil, or_false,
      List.mem_map] at ht
    rcases ht with ((rfl | hd) | rfl | rfl) | ⟨staged, hs, rfl⟩
    · simp [h.addend.1.type_eq]
    · simp [(h.type_of_mem_channelTensors hd).2, Config.outputType]
    · obtain ⟨n, -, halike, -⟩ := h.alpha
      simp [show case.operands.alpha.host.type = config.typeScalar from halike.type_eq]
    · obtain ⟨n, -, halike, -⟩ := h.beta
      simp [show case.operands.beta.host.type = config.typeScalar from halike.type_eq]
    · cases hscale : case.operands.scale with
      | none =>
        rw [hscale] at hs
        cases hs
      | some s =>
        rw [hscale] at hs
        obtain ⟨name, halike⟩ := (h.factor_alike hscale).2 staged hs
        simp [show staged.host.type = config.typeScalar from halike.type_eq]
  exact h.valid.real hdeclares htype

end

end Materialized

/-! ### Real epilogues -/

namespace Case

variable {config : Config} {p : Problem} {x y : Float} {device placed : Device} {case : Case}

/-- **An epilogue with features is real but for the types of its features.**  All tensors of the
linear combination are real, and so are the values that it adds; the others have the types of the
features.  So all tensors are real if and only if those types are, and a real tensor has no element
with an imaginary part. -/
theorem epilogue_real (hd : device.Sound) (hdeclares : config.fusion.declaresFeature = true)
    (hset : setUp config p x y device = (.ok case, placed)) :
    (∀ t ∈ case.linearTensors, t.type.isComplex = false) ∧
      (∀ c, (case.fusedProduct.accumulated c).im = 0 ∧ (case.fusedProduct.alpha.read c).im = 0 ∧
        (case.fusedProduct.beta.read c).im = 0 ∧ (case.fusedProduct.c.read c).im = 0) ∧
      (∀ type, (∃ t ∈ case.featureTensors, t.type = type) ↔ type ∈ config.featureTypes) ∧
      ((∀ t ∈ case.epilogueTensors, t.type.isComplex = false) ↔
        ∀ type ∈ config.featureTypes, type.isComplex = false) ∧
      ∀ t ∈ case.epilogueTensors, t.type.isComplex = false → ∀ c, (t.read c).im = 0 := by
  have hm := materialized_of_setUp hd hset
  have hlinear := fun t (ht : t ∈ case.linearTensors) => hm.linearTensors_real hdeclares ht
  have hfeature : ∀ type, (∃ t ∈ case.featureTensors, t.type = type) ↔
      type ∈ config.featureTypes := fun _ => hm.exists_featureTensors_iff
  refine ⟨hlinear, fun c => ⟨?_, ?_, ?_, ?_⟩, hfeature, ⟨?_, ?_⟩, ?_⟩
  · have haccumulator : case.fusedProduct.accumulator = config.typeAccumulator := by
      rw [hm.case_eq]
      rfl
    exact FusedProduct.im_accumulated
      (haccumulator ▸ hm.valid.real hdeclares (by simp)) c
  · exact case.im_scalarSource (hlinear _ (by simp [linearTensors])) c
  · exact case.im_scalarSource (hlinear _ (by simp [linearTensors])) c
  · exact Tensor.im_read_of_real (hlinear case.operands.c.host (by simp [linearTensors])) c
  · intro hreal type hmem
    obtain ⟨t, ht, rfl⟩ := (hfeature type).mpr hmem
    exact hreal t (case.epilogueTensors_eq ▸ List.mem_append_right _ ht)
  · intro hreal t ht
    rw [case.epilogueTensors_eq] at ht
    rcases List.mem_append.mp ht with ht | ht
    · exact hlinear t ht
    · exact hreal _ ((hfeature _).mp ⟨t, ht, rfl⟩)
  · exact fun t _ hreal => Tensor.im_read_of_real hreal

/-- The problem of one element. -/
def oneElement : Problem := .single 1 1 1

/-- An epilogue with features of two narrow types. -/
def narrowFeatures : Config where
  typeD := .f8e4m3
  typeBias := .f16
  typeAux := .bf16
  fusion := { rowBias := true, auxOut := true, absMax := true }

theorem epilogue_real_narrowFeatures : ({} : Device).Sound ∧
    narrowFeatures.fusion.declaresFeature = true ∧
    ∃ case placed, setUp narrowFeatures oneElement 1 1 {} = (.ok case, placed) ∧
      ∀ t ∈ case.epilogueTensors, t.type.isComplex = false := by
  have hd : ({} : Device).Sound := Device.sound_empty none
  have hset : ∃ case placed, setUp narrowFeatures oneElement 1 1 {} = (.ok case, placed) :=
    ⟨_, _, rfl⟩
  obtain ⟨case, placed, hset⟩ := hset
  obtain ⟨-, -, -, hreal, -⟩ := epilogue_real hd rfl hset
  exact ⟨hd, rfl, case, placed, hset, hreal.mpr (by decide)⟩

/-- An epilogue with a complex bias. -/
def complexBias : Config where
  typeBias := .c32
  fusion := { rowBias := true }

/-- A complex bias is valid, and its imaginary part is added to the sum. -/
theorem epilogue_complexBias : complexBias.Valid ∧ complexBias.fusion.declaresFeature = true ∧
    ∃ case placed, setUp complexBias oneElement 1 1 {} = (.ok case, placed) ∧
      ∃ t ∈ case.epilogueTensors, t.type.isComplex = true ∧ case.fusedProduct.bias = some t ∧
        (t.read .origin).im ≠ 0 := by
  have hset : ∃ case placed, setUp complexBias oneElement 1 1 {} = (.ok case, placed) :=
    ⟨_, _, rfl⟩
  obtain ⟨case, placed, hset⟩ := hset
  have hm := materialized_of_setUp (Device.sound_empty none) hset
  have hbias : case.operands.bias.isSome = true := hm.isSome_bias
  obtain ⟨staged, hs⟩ := Option.isSome_iff_exists.mp hbias
  refine ⟨by decide, by decide, case, placed, hset, staged.host, ?_, ?_, ?_, ?_⟩
  · rw [epilogueTensors_eq]
    exact List.mem_append_right _ (by simp [featureTensors, hs])
  · rw [(hm.bias_packed hs).type_eq]
    rfl
  · exact congrArg (Option.map Staged.host) hs
  · rw [(hm.bias_planned hs).2.1]
    decide +kernel

end Case

end FusedGemm
