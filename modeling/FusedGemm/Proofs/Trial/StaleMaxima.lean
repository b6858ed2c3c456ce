import FusedGemm.Proofs.Numeric.Comparing
import FusedGemm.Proofs.Numeric.Quantizing
import FusedGemm.Proofs.Trial.Agreement

/-!
# Running maxima that are not reset

The running maxima start from the greatest number of their type in device memory and from zero in
the reference.  So a kernel that keeps them ends at another code than the reference, unless the
largest absolute value that it has to find is itself rounded to the greatest number or beyond
(`ElementType.Saturates`): `Config.bytes_raise_absMaxTensor_iff` says so of the two tensors, and
`Round.keeps_maxima_unnoticed_iff` of the report of a round.
-/

namespace FusedGemm

/-! ### Saturation -/

/-- The number is rounded to the greatest number of the type or beyond. -/
def ElementType.Saturates (t : ElementType) (x : Float) : Prop :=
  t.encodePart t.greatest ≤ t.encodePart x

instance (t : ElementType) (x : Float) : Decidable (t.Saturates x) :=
  inferInstanceAs (Decidable (_ ≤ _))

namespace FusedProduct

/-- The largest absolute value of the results. -/
def peak (p : FusedProduct) (e : Extent) : Float := largest Cell.result (p.cells e)

theorem unsigned_largest (value : Cell → ComplexFloat) (cells : List Cell) :
    Unsigned (largest value cells) := by
  have hfold : ∀ (cells : List Cell) {x : Float}, Unsigned x →
      Unsigned (cells.foldl (fun x cell => maxNumber x (value cell).norm) x) := by
    intro cells
    induction cells with
    | nil => exact fun h => h
    | cons cell cells ih => exact fun h => ih (h.maxNumber _)
  exact hfold cells parts_zero.unsigned

end FusedProduct

/-! ### Tensors of one element -/

namespace Tensor

/-- A tensor of one element. -/
def single (name : String) (type : ElementType) (element : Code type) : Tensor :=
  ⟨name, type, .scalar, #[element]⟩

variable {name name' : String} {type : ElementType} {element element' : Code type}

theorem bytes_single_inj :
    (single name type element).bytes = (single name' type element').bytes ↔ element = element' := by
  refine ⟨fun h => ?_, fun h => h ▸ rfl⟩
  have hcodes : #[element] = #[element'] :=
    codes_eq_of_bytes_eq (t := single name type element') rfl h
  simpa using hcodes

theorem raise_single (x : Float) : FusedProduct.raise (single name type element) x =
    single name type
      (if (type.decode element).re < x then type.encode (.ofReal x) else element) := by
  show (if (type.decode element).re < x then single name type (type.encode (.ofReal x))
    else single name type element) = _
  split_ifs <;> rfl

end Tensor

namespace ElementType

theorem decode_encode_greatest (t : ElementType) :
    (t.decode (t.encode (.ofReal t.greatest))).re = t.greatest := by
  have hquantize : t.quantize (.ofReal t.greatest) = .ofReal (t.quantizePart t.greatest) :=
    t.quantize_eq t.unsigned_greatest fun _ => rfl
  rw [quantizePart_greatest] at hquantize
  exact congrArg ComplexFloat.re hquantize

/-- From zero a running maximum always ends at the code of the largest value. -/
theorem raised_from_zero (t : ElementType) {x : Float} (hx : Unsigned x) :
    (if (t.decode 0).re < x then t.encode (.ofReal x) else 0) = t.encode (.ofReal x) := by
  have hzero : code 0 = 0 := by decide
  rw [decode_zero]
  show (if 0 < x then t.encode (.ofReal x) else 0) = _
  split_ifs with hpos
  · rfl
  · rw [lt_iff_code_lt parts_zero.unsigned hx, hzero, Nat.not_lt, Nat.le_zero, ← hzero] at hpos
    rw [code_inj hpos, encode_zero]

/-- From the greatest number it does so for the values that saturate. -/
theorem raised_from_greatest_iff (t : ElementType) {x : Float} (hx : Unsigned x) :
    (if (t.decode (t.encode (.ofReal t.greatest))).re < x then t.encode (.ofReal x)
      else t.encode (.ofReal t.greatest)) = t.encode (.ofReal x) ↔ t.Saturates x := by
  rw [decode_encode_greatest]
  unfold Saturates
  split_ifs with hlt
  · rw [lt_iff_code_lt t.unsigned_greatest hx] at hlt
    exact iff_of_true rfl (t.encodePart_mono hx hlt.le)
  · rw [lt_iff_code_lt t.unsigned_greatest hx, Nat.not_lt] at hlt
    have hle := t.encodePart_mono t.unsigned_greatest hlt
    rw [t.encode_ofReal_eq_iff t.unsigned_greatest hx]
    exact ⟨fun h => h.le, fun h => Nat.le_antisymm h hle⟩

end ElementType

/-- **A maximum from the greatest number ends as one from zero does if its value saturates.** -/
theorem Config.bytes_raise_absMaxTensor_iff (config : Config) (name name' : String) {x : Float}
    (hx : Unsigned x) :
    (FusedProduct.raise (config.absMaxTensor name) x).bytes =
        (FusedProduct.raise (.zeros name' config.typeAbsMax .scalar) x).bytes ↔
      config.typeAbsMax.Saturates x := by
  have hstale : config.absMaxTensor name = .single name config.typeAbsMax
      (config.typeAbsMax.encode (.ofReal config.typeAbsMax.greatest)) := rfl
  have hfresh : Tensor.zeros name' config.typeAbsMax .scalar =
      .single name' config.typeAbsMax 0 := rfl
  rw [hstale, hfresh, Tensor.raise_single, Tensor.raise_single, Tensor.bytes_single_inj,
    config.typeAbsMax.raised_from_zero hx, config.typeAbsMax.raised_from_greatest_iff hx]

/-! ### Reports -/

namespace Materialized

variable {config : Config} {p : Problem} {x y : Float} {device placed : Device} {case : Case}

/-- The running maximum of `D` has not been reset. -/
theorem absMaxD (h : Materialized config p x y device case placed) {staged : Staged}
    (hs : case.operands.outputs.absMaxD = some staged) :
    staged.host = config.absMaxTensor "abs_max_D" := by
  have hrel := h.meets.outputs.absMaxD
  rw [hs] at hrel
  obtain ⟨entry, hentry, placement, hok, hhost, -⟩ := exists_of_rel_of_some hrel
  simp only [Config.plan, Config.outputPlan, Option.ite_none_right_eq_some] at hentry
  obtain ⟨-, hentry⟩ := hentry
  cases hentry
  cases hok
  exact hhost

theorem extent_reference (h : Materialized config p x y device case placed) :
    case.reference.d.extent = p.outputExtent := by
  have hproduct : case.operands.outputs.get? .d = some case.operands.outputs.d := rfl
  obtain ⟨t, ht, halike⟩ := h.alike_reference hproduct
  obtain rfl : case.reference.d = t := Option.some.inj ht
  exact halike.extent_eq.trans h.product.extent_eq

/-- The bytes of the maximum that has been kept are those of the reference if the peak saturates. -/
theorem bytes_absMaxD_iff (h : Materialized config p x y device case placed) {staged : Staged}
    {kept expected : Tensor} (hs : case.operands.outputs.get? .absMaxD = some staged)
    (hkept : (case.fusedProduct.apply (case.start true)).get? .absMaxD = some kept)
    (hexpected : (case.fusedProduct.apply case.reference).get? .absMaxD = some expected) :
    kept.bytes = expected.bytes ↔
      config.typeAbsMax.Saturates (case.fusedProduct.peak p.outputExtent) := by
  have hhost := h.absMaxD hs
  have hstart : (case.start true).absMaxD = some (config.absMaxTensor "abs_max_D") := by
    show (case.operands.outputs.map Staged.host).get? .absMaxD = _
    rw [Outputs.get?_map, hs, Option.map_some, hhost]
  have hreference : case.reference.absMaxD =
      some (.zeros ("reference " ++ "abs_max_D") config.typeAbsMax .scalar) := by
    rw [h.reference_eq]
    show ((case.operands.outputs.map _).get? .absMaxD) = _
    rw [Outputs.get?_map, hs, Option.map_some, hhost]
    rfl
  have hkept' : (case.start true).absMaxD.map (fun t => FusedProduct.raise t
      (case.fusedProduct.peak case.reference.d.extent)) = some kept := hkept
  have hexpected' : case.reference.absMaxD.map (fun t => FusedProduct.raise t
      (case.fusedProduct.peak case.reference.d.extent)) = some expected := hexpected
  rw [hstart, Option.map_some, Option.some.injEq, h.extent_reference] at hkept'
  rw [hreference, Option.map_some, Option.some.injEq, h.extent_reference] at hexpected'
  rw [← hkept', ← hexpected']
  exact config.bytes_raise_absMaxTensor_iff _ _ (FusedProduct.unsigned_largest _ _)

end Materialized

namespace Round

theorem Launched.exists_setUp {σ : Type} {kernel : Kernel σ} {config : Config} {r : Round} {s : σ}
    {device launched : Device} {case : Case}
    (h : Launched kernel config r s device case launched) :
    ∃ placed, Case.setUp config r.problem r.alpha r.beta device = (.ok case, placed) := by
  cases h with
  | intro hset => exact ⟨_, hset⟩

/-- **A maximum that is kept goes unnoticed only where it saturates.**  Let an emulated kernel keep
its running maxima, whatever its other faults, and let a round with the exact comparison come to a
report, with the largest absolute value of the product tracked.  The one entry of this value has no
mismatch if and only if the largest absolute value of the results is rounded to the greatest number
of the type of the maximum or beyond.  So where it is not the report does not pass. -/
theorem keeps_maxima_unnoticed_iff {config : Config} {r : Round} {kernel : EmulatedKernel}
    {device : Device} {outcome : Outcome} {report : Report} (hd : device.Sound)
    (hstale : kernel.has .keepsMaxima = true) (hown : kernel.ownDevice = none)
    (hactive : config.capabilities.absMaxD = true) (hexact : config.equality = .exact)
    (hrun : (run emulation config r kernel device).1 = .ok outcome)
    (hreport : outcome.report? = some report) :
    ∃ case placed found,
      Case.setUp config r.problem r.alpha r.beta device = (.ok case, placed) ∧
      report.channels.filter (fun o => o.channel == .absMaxD) = [found] ∧
      (found.mismatches.count = 0 ↔
        config.typeAbsMax.Saturates (case.fusedProduct.peak r.problem.outputExtent)) ∧
      (outcome.isPassed = true →
        config.typeAbsMax.Saturates (case.fusedProduct.peak r.problem.outputExtent)) := by
  obtain ⟨case, launched, hl⟩ := exists_launched_of_report hrun hreport
  obtain ⟨hsound, placed, hm⟩ := hl.materialized emulation_keepsShape hd
  obtain ⟨made, hset⟩ := hl.exists_setUp
  rw [run_of_launched hl] at hrun
  obtain ⟨pulled, hpull, rfl⟩ := exists_pulled_of_report hrun hreport
  rw [Case.report?_outcome, Option.some.injEq] at hreport
  subst hreport
  have hsync : launched.synchronize.2.Sound :=
    hsound.of_sameShape (Device.sameShape_synchronize launched)
  obtain ⟨staged, expected, found, hs, hexpected, hfilter, hzero⟩ :=
    exists_found_of_writes hm hsync hexact hpull (show config.capabilities.writes .absMaxD = true
      from hactive)
  obtain ⟨kept, hkept, halike, hcontents⟩ := hl.contents_start hd hown .absMaxD staged hs
  rw [hstale] at hkept
  rw [kernel.written_of_ne (by decide)] at hcontents
  have hbytes : (launched.synchronize.2.contents? staged.pointer).getD [] = kept.bytes :=
    contents_of_output hm hsync hs halike hcontents
  have hiff : found.mismatches.count = 0 ↔
      config.typeAbsMax.Saturates (case.fusedProduct.peak r.problem.outputExtent) := by
    rw [hzero, hbytes]
    exact hm.bytes_absMaxD_iff hs hkept hexpected
  refine ⟨case, made, found, hset, hfilter, hiff, fun hpassed => hiff.mp ?_⟩
  rw [Case.isPassed_outcome] at hpassed
  have hmem : found ∈ pulled.withReference.compare.channels := by
    have hmem' : found ∈ pulled.withReference.compare.channels.filter
        (fun o => o.channel == .absMaxD) := by
      rw [hfilter]
      exact List.mem_singleton_self found
    exact (List.mem_filter.mp hmem').1
  exact beq_iff_eq.mp (List.all_eq_true.mp (Bool.and_eq_true_iff.mp hpassed).2 found hmem)

/-- An epilogue whose product and whose maximum are 8-bit floats. -/
def narrowMaximum : Config where
  typeD := .f8e4m3
  typeAbsMax := .f8e4m3
  fusion := { absMax := true }
  fillA := .ones
  fillB := .ones
  fillC := .ones

/-- A kernel that keeps its running maxima. -/
def keeping : EmulatedKernel := { faults := [.keepsMaxima] }

/-- A product that is the number `x`. -/
def single (x : Float) : Round := ⟨⟨1, 1, 1, 1, Nat.one_pos⟩, x, 0⟩

set_option maxRecDepth 2000 in
theorem keeps_maxima_unnoticed_iff_small :
    ({} : Device).Sound ∧ keeping.has .keepsMaxima = true ∧ keeping.ownDevice = none ∧
      narrowMaximum.capabilities.absMaxD = true ∧ narrowMaximum.equality = .exact ∧
      ∃ outcome report case placed found,
        (run emulation narrowMaximum (single 1) keeping {}).1 = .ok outcome ∧
        outcome.report? = some report ∧
        Case.setUp narrowMaximum (single 1).problem 1 0 {} = (.ok case, placed) ∧
        report.channels.filter (fun o => o.channel == .absMaxD) = [found] ∧
        (found.mismatches.count = 0 ↔
          ElementType.f8e4m3.Saturates
            (case.fusedProduct.peak (single 1).problem.outputExtent)) := by
  have hd : ({} : Device).Sound := Device.sound_empty none
  obtain ⟨pulled, hrun⟩ : ∃ pulled : Case,
      (run emulation narrowMaximum (single 1) keeping {}).1 = .ok pulled.outcome := ⟨_, rfl⟩
  have hreport := pulled.report?_outcome
  obtain ⟨case, placed, found, hset, hfilter, hiff, -⟩ :=
    keeps_maxima_unnoticed_iff hd (by decide) rfl rfl rfl hrun hreport
  exact ⟨hd, by decide, rfl, rfl, rfl, _, _, case, placed, found, hrun, hreport, hset, hfilter,
    hiff⟩

/-- The number 500 is beyond the greatest one, 448: the maximum that is kept goes unnoticed. -/
theorem keeps_maxima_passed_large :
    narrowMaximum.Valid ∧ narrowMaximum.capabilities.absMaxD = true ∧
      narrowMaximum.equality = .exact ∧ keeping.has .keepsMaxima = true ∧
      keeping.ownDevice = none ∧
      (run emulation narrowMaximum (single 500) keeping {}).1.toOption.map Outcome.isPassed =
        some true := by
  refine ⟨by decide, rfl, rfl, by decide, rfl, ?_⟩
  decide +kernel

end Round

end FusedGemm
