import FusedGemm.Proofs.Trial.Agreement
import FusedGemm.Proofs.Trial.EmptyScalars

/-!
# Features that only add outputs

Writing `Aux`, tracking the largest values and collecting the gradient of the bias add outputs to a
trial (`Config.withOutputs`).  They leave alone what `D` is computed from: the same tensors are made
(`Materialized.inputs_eq`), and the fused products differ at most in the factor of `Aux`
(`FusedProduct.EqButAux`), which no element of `D` depends on.  So the reference and every emulated
kernel without faults have the same `D` with these features and without (`Round.withOutputs_product`).
-/

namespace FusedGemm

/-! ### Fused products -/

namespace FusedProduct

/-- The products differ at most in the scale factor of `Aux`. -/
structure EqButAux (p q : FusedProduct) : Prop where
  eq : q = { p with scale := q.scale }
  scale : Option.Rel (fun f f' => f' = { f with aux := f'.aux }) p.scale q.scale

variable {p q : FusedProduct} {o o' : Outputs Tensor}

/-- `D` does not depend on the factor of `Aux`. -/
theorem EqButAux.store_eq (h : EqButAux p q) (t : Tensor) (e : Extent) :
    store t q.product (q.cells e) = store t p.product (p.cells e) := by
  obtain ⟨heq, hscale⟩ := h
  generalize q.scale = scale at heq hscale
  subst heq
  obtain ⟨a, b, accumulator, c, alpha, beta, factors, bias, auxIn, activation⟩ := p
  cases hscale with
  | none => rfl
  | @some f f' hfactors =>
    rw [hfactors]
    rfl

theorem EqButAux.d_eq (h : EqButAux p q) (hd : o'.d = o.d) : (q.apply o').d = (p.apply o).d := by
  show store o'.d q.product (q.cells o'.d.extent) = store o.d p.product (p.cells o.d.extent)
  rw [hd]
  exact h.store_eq o.d o.d.extent

end FusedProduct

/-! ### What `D` is computed from -/

/-- The configuration with other choices of what is written besides `D`. -/
def Config.withOutputs (config : Config) (auxOut absMax biasGradient : Bool) : Config :=
  { config with fusion := { config.fusion with
    auxOut := auxOut, absMax := absMax, biasGradient := biasGradient } }

/-- The host tensors that `D` is computed from. -/
structure Inputs where
  a : Tensor
  b : Tensor
  c : Tensor
  alpha : Tensor
  beta : Tensor
  /-- The scale factors of `A`, `B`, `C` and `D`, where there are any. -/
  scale : Option (List Tensor)
  bias : Option Tensor
  auxIn : Option Tensor

/-- The host tensors of a case that `D` is computed from. -/
def Case.inputs (case : Case) : Inputs where
  a := case.operands.a.host
  b := case.operands.b.host
  c := case.operands.c.host
  alpha := case.operands.alpha.host
  beta := case.operands.beta.host
  scale := case.operands.scale.map fun s => [s.a.host, s.b.host, s.c.host, s.d.host]
  bias := case.operands.bias.map Staged.host
  auxIn := case.operands.auxIn.map Staged.host

namespace Staged

variable {entry : Config.Entry} {staged staged' : Staged}

/-- An entry of a plan says what the host copy is. -/
theorem Meets.host_eq (h : Meets entry staged) (h' : Meets entry staged') :
    staged.host = staged'.host := by
  obtain ⟨placement, hok, hhost, -⟩ := h
  obtain ⟨placement', hok', hhost', -⟩ := h'
  rw [hok, Except.ok.injEq] at hok'
  rw [hhost, hhost', hok']

theorem map_host_eq {x : Option Config.Entry} {y y' : Option Staged} (h : Option.Rel Meets x y)
    (h' : Option.Rel Meets x y') : y.map host = y'.map host := by
  cases h with
  | none =>
    cases h'
    rfl
  | some hmeets =>
    obtain ⟨staged', rfl, hmeets'⟩ := exists_of_rel_some h'
    exact congrArg some (hmeets.host_eq hmeets')

end Staged

namespace Materialized

variable {config : Config} {auxOut absMax biasGradient : Bool} {p : Problem} {x y : Float}
  {device device' placed placed' : Device} {case case' : Case}

/-- **The same tensors are made**, whatever is written besides `D`. -/
theorem inputs_eq (h : Materialized config p x y device case placed)
    (h' : Materialized (config.withOutputs auxOut absMax biasGradient) p x y device' case' placed') :
    case.inputs = case'.inputs := by
  have ha := Staged.Meets.host_eq h.meets.a h'.meets.a
  have hb := Staged.Meets.host_eq h.meets.b h'.meets.b
  have hc := Staged.Meets.host_eq h.meets.c h'.meets.c
  have halpha := Staged.Meets.host_eq h.meets.alpha h'.meets.alpha
  have hbeta := Staged.Meets.host_eq h.meets.beta h'.meets.beta
  have hbias := Staged.map_host_eq h.meets.bias h'.meets.bias
  have hauxIn := Staged.map_host_eq h.meets.auxIn h'.meets.auxIn
  have hscale : case.operands.scale.map (fun s => [s.a.host, s.b.host, s.c.host, s.d.host]) =
      case'.operands.scale.map fun s => [s.a.host, s.b.host, s.c.host, s.d.host] := by
    have hrel := h.meets.scale
    have hrel' := h'.meets.scale
    cases hactive : config.capabilities.scaleFactors with
    | false =>
      have hactive' : (config.withOutputs auxOut absMax biasGradient).capabilities.scaleFactors =
        false := hactive
      simp only [Config.plan, hactive, hactive', Bool.false_eq_true, if_false] at hrel hrel'
      rw [eq_none_of_rel hrel, eq_none_of_rel hrel']
    | true =>
      have hactive' : (config.withOutputs auxOut absMax biasGradient).capabilities.scaleFactors =
        true := hactive
      simp only [Config.plan, hactive, hactive', if_true] at hrel hrel'
      obtain ⟨s, hs, hmeets⟩ := exists_of_rel_some hrel
      obtain ⟨s', hs', hmeets'⟩ := exists_of_rel_some hrel'
      have hsa := Staged.Meets.host_eq hmeets.a hmeets'.a
      have hsb := Staged.Meets.host_eq hmeets.b hmeets'.b
      have hsc := Staged.Meets.host_eq hmeets.c hmeets'.c
      have hsd := Staged.Meets.host_eq hmeets.d hmeets'.d
      rw [hs, hs', Option.map_some, Option.map_some, hsa, hsb, hsc, hsd]
  unfold Case.inputs
  rw [ha, hb, hc, halpha, hbeta, hbias, hauxIn, hscale]

/-- The fused products differ at most in the factor of `Aux`. -/
theorem eqButAux (h : Materialized config p x y device case placed)
    (h' : Materialized (config.withOutputs auxOut absMax biasGradient) p x y device' case' placed') :
    case.fusedProduct.EqButAux case'.fusedProduct := by
  have hinputs := h.inputs_eq h'
  simp only [Case.inputs, Inputs.mk.injEq] at hinputs
  obtain ⟨ha, hb, hc, halpha, hbeta, hscale, hbias, hauxIn⟩ := hinputs
  have hsource : case'.scalarSource = case.scalarSource := by
    rw [h.case_eq, h'.case_eq]
    rfl
  have haccumulator : case'.config.typeAccumulator = case.config.typeAccumulator := by
    rw [h.case_eq, h'.case_eq]
    rfl
  have hactivation : case'.config.activation = case.config.activation := by
    rw [h.case_eq, h'.case_eq]
    rfl
  refine ⟨?_, ?_⟩
  · unfold Case.fusedProduct
    rw [ha, hb, hc, halpha, hbeta, hbias, hauxIn, hsource, haccumulator, hactivation]
  · show Option.Rel _ case.factors case'.factors
    unfold Case.factors
    cases hs : case.operands.scale with
    | none =>
      rw [hs, Option.map_none, eq_comm, Option.map_eq_none_iff] at hscale
      rw [hscale]
      exact .none
    | some s =>
      rw [hs, Option.map_some, eq_comm, Option.map_eq_some_iff] at hscale
      obtain ⟨s', hs', hfactors⟩ := hscale
      rw [hs']
      simp only [List.cons.injEq, and_true] at hfactors
      obtain ⟨hsa, hsb, hsc, hsd⟩ := hfactors
      refine .some ?_
      simp only [Case.factorOf, hsa, hsb, hsc, hsd]

/-- **The reference computes the same `D`.** -/
theorem reference_d_eq (h : Materialized config p x y device case placed)
    (h' : Materialized (config.withOutputs auxOut absMax biasGradient) p x y device' case' placed') :
    case.withReference.reference.d = case'.withReference.reference.d := by
  have hstart : case'.reference.d = case.reference.d := by
    have hproduct := Staged.Meets.host_eq h.meets.outputs.d h'.meets.outputs.d
    have haddend := Staged.Meets.host_eq h.meets.c h'.meets.c
    rw [h.reference_eq, h'.reference_eq]
    show Tensor.copyFrom (.zeros _ _ _) _ = Tensor.copyFrom (.zeros _ _ _) _
    rw [hproduct, haddend]
  exact ((h.eqButAux h').d_eq hstart).symm

end Materialized

/-! ### Launches -/

namespace Round

variable {config : Config} {r : Round} {kernel : EmulatedKernel}
  {device placed scratch launched : Device} {case : Case} {buffer : Buffer}

/-- A case whose output has rows is launched by a kernel without faults, if there is memory for the
scratch buffer. -/
theorem exists_launched (hd : device.Sound) (hm : 0 < r.problem.m) (hk : kernel.Faultless)
    (hset : Case.setUp config r.problem r.alpha r.beta device = (.ok case, placed))
    (hb : Buffer.allocate kernel.workspace placed = .ok (buffer, scratch)) :
    ∃ launched, Launched emulation config r kernel device case launched := by
  have h := materialized_of_setUp hd hset
  obtain ⟨launch, harg⟩ := h.exists_arguments fun hrows => hm.ne' hrows.2
  have hresident := h.resident.buffer_allocate h.holds.sound hb
  have hnone := (h.execute hresident (h.holds.sound.buffer_allocate hb) hk harg).1
  exact ⟨_, launched_of_execute hd hk.onlyOffsets hset harg hb hnone⟩

/-- The bytes of `D` that a kernel without faults has left are those of the reference. -/
theorem Launched.contents_product (hl : Launched emulation config r kernel device case launched)
    (hd : device.Sound) (hk : kernel.Faultless) :
    (launched.contents? case.operands.outputs.d.pointer).getD [] =
      case.withReference.reference.d.bytes := by
  obtain ⟨hsound, placed, hm⟩ := hl.materialized emulation_keepsShape hd
  have hproduct : case.operands.outputs.get? .d = some case.operands.outputs.d := rfl
  obtain ⟨expected, happly, halike, hcontents⟩ :=
    hl.contents_emulation hd hk.onlyOffsets .d case.operands.outputs.d hproduct
  obtain rfl : case.withReference.reference.d = expected := Option.some.inj happly
  rw [hk.written_eq] at hcontents
  exact contents_of_output hm hsound hproduct halike hcontents

end Round

/-- **Features that only add outputs do not influence `D`.**  With any other choice of them a case
has the same inputs, and the reference the same `D`, element by element and code by code.  A kernel
without faults can launch both wherever it has memory for its scratch buffer, and leaves the same
bytes of `D`, which are those of the reference. -/
theorem Round.withOutputs_product {config : Config} {auxOut absMax biasGradient : Bool} {r : Round}
    {device device' placed placed' : Device} {case case' : Case} (hd : device.Sound)
    (hd' : device'.Sound) (hm : 0 < r.problem.m)
    (hset : Case.setUp config r.problem r.alpha r.beta device = (.ok case, placed))
    (hset' : Case.setUp (config.withOutputs auxOut absMax biasGradient) r.problem r.alpha r.beta
      device' = (.ok case', placed')) :
    case.inputs = case'.inputs ∧
    case.withReference.reference.d = case'.withReference.reference.d ∧
    ∀ kernel kernel' : EmulatedKernel, kernel.Faultless → kernel'.Faultless →
      (∀ buffer scratch, Buffer.allocate kernel.workspace placed = .ok (buffer, scratch) →
        ∃ launched, Launched emulation config r kernel device case launched) ∧
      (∀ buffer scratch, Buffer.allocate kernel'.workspace placed' = .ok (buffer, scratch) →
        ∃ launched', Launched emulation (config.withOutputs auxOut absMax biasGradient) r kernel'
          device' case' launched') ∧
      ∀ launched launched', Launched emulation config r kernel device case launched →
        Launched emulation (config.withOutputs auxOut absMax biasGradient) r kernel' device' case'
          launched' →
        (launched.contents? case.operands.outputs.d.pointer).getD [] =
            (launched'.contents? case'.operands.outputs.d.pointer).getD [] ∧
          (launched.contents? case.operands.outputs.d.pointer).getD [] =
            case.withReference.reference.d.bytes := by
  have h := materialized_of_setUp hd hset
  have h' := materialized_of_setUp hd' hset'
  have hreference := h.reference_d_eq h'
  refine ⟨h.inputs_eq h', hreference, fun kernel kernel' hk hk' => ⟨?_, ?_, ?_⟩⟩
  · exact fun buffer scratch hb => exists_launched hd hm hk hset hb
  · exact fun buffer scratch hb => exists_launched hd' hm hk' hset' hb
  · intro launched launched' hl hl'
    have hbytes := hl.contents_product hd hk
    have hbytes' := hl'.contents_product hd' hk'
    refine ⟨?_, hbytes⟩
    rw [hbytes, hbytes', hreference]

/-- An epilogue with scale factors and a product of eight bits. -/
def narrow : Config where
  typeD := .f8e4m3
  fusion := { scaleFactors := true }

/-- With three more outputs and one more scale factor the product is the same. -/
theorem Round.withOutputs_product_narrow : ({} : Device).Sound ∧ 0 < twoBatches.problem.m ∧
    ∃ case placed case' placed' launched launched',
      Case.setUp narrow twoBatches.problem 1 0 {} = (.ok case, placed) ∧
      Case.setUp (narrow.withOutputs true true true) twoBatches.problem 1 0 {} =
        (.ok case', placed') ∧
      Launched emulation narrow twoBatches { workspace := 16 } {} case launched ∧
      Launched emulation (narrow.withOutputs true true true) twoBatches {} {} case' launched' ∧
      (launched.contents? case.operands.outputs.d.pointer).getD [] =
        (launched'.contents? case'.operands.outputs.d.pointer).getD [] := by
  have hd : ({} : Device).Sound := Device.sound_empty none
  have hm : 0 < twoBatches.problem.m := by decide
  have hk : EmulatedKernel.Faultless { workspace := 16 } := ⟨rfl, rfl⟩
  have hk' : EmulatedKernel.Faultless {} := ⟨rfl, rfl⟩
  obtain ⟨case, placed, buffer, scratch, hset, hb⟩ : ∃ case placed buffer scratch,
      Case.setUp narrow twoBatches.problem 1 0 {} = (.ok case, placed) ∧
      Buffer.allocate 16 placed = .ok (buffer, scratch) := ⟨_, _, _, _, rfl, rfl⟩
  obtain ⟨case', placed', buffer', scratch', hset', hb'⟩ : ∃ case' placed' buffer' scratch',
      Case.setUp (narrow.withOutputs true true true) twoBatches.problem 1 0 {} =
        (.ok case', placed') ∧
      Buffer.allocate 0 placed' = .ok (buffer', scratch') := ⟨_, _, _, _, rfl, rfl⟩
  obtain ⟨-, -, hkernels⟩ := Round.withOutputs_product hd hd hm hset hset'
  obtain ⟨hlaunch, hlaunch', hbytes⟩ := hkernels _ _ hk hk'
  obtain ⟨launched, hl⟩ := hlaunch buffer scratch hb
  obtain ⟨launched', hl'⟩ := hlaunch' buffer' scratch' hb'
  exact ⟨hd, hm, case, placed, case', placed', launched, launched', hset, hset', hl, hl',
    (hbytes launched launched' hl hl').1⟩

end FusedGemm
