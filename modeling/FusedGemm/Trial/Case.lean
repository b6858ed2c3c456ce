import FusedGemm.Check.Report
import FusedGemm.Gemm.Reference
import FusedGemm.Trial.Lease

/-!
# Cases

A `Case` holds the operands of one trial, on the host and on the device, and the outputs that the
reference computes.  It is made by `Case.materialize`, turned into arguments for a kernel by
`Case.arguments` and into a fused product on the host by `Case.fusedProduct`.  After the kernel has
run, `Case.pullOutputs` copies its outputs to the host, and `Case.compare` compares them with those
that `Case.withReference` has computed.
-/

namespace FusedGemm

/-! ## Making a case -/

/-- The operands of one trial and the outputs of the reference. -/
structure Case where
  config : Config
  problem : Problem
  alpha : Float
  beta : Float
  comparison : Comparison
  operands : Operands Staged
  reference : Outputs Tensor

namespace Config

/-- The outputs of the reference before it is computed: zeros, but for `D`, which starts as a copy
of `C`. -/
def referenceOutputs (operands : Operands Staged) : Outputs Tensor :=
  let blank := operands.outputs.map fun m =>
    Tensor.zeros ("reference " ++ m.host.name) m.host.type m.host.layout
  blank.set .d (blank.d.copyFrom operands.c.host)

/-- Places all operands of a plan and checks the tolerance last. -/
def acquire (config : Config) (p : Problem) (alpha beta : Float) : Acquire Case := do
  let operands ← (config.plan p alpha beta).mapM fun (entry : Entry) => do
    let placement ← Acquire.ofExcept (entry ())
    Acquire.place placement
  let comparison ← Acquire.ofExcept (config.comparison.mapError .config)
  return ⟨config, p, alpha, beta, comparison, operands, referenceOutputs operands⟩

end Config

namespace Case

/-- Makes the case of a problem, or leaves the allocations of the device as they were. -/
def materialize (config : Config) (p : Problem) (alpha beta : Float) (device : Device) :
    Except Failure Case × Device :=
  (config.acquire p alpha beta).run device

/-- Makes the case of a problem for a configuration that has no faults. -/
def setUp (config : Config) (p : Problem) (alpha beta : Float) (device : Device) :
    Except Failure Case × Device :=
  match config.validate with
  | .ok valid => materialize valid p alpha beta device
  | .error e => (.error (.config e), device)

variable (case : Case)

/-- The pointers of all operands; those that are on the host only are null. -/
def pointers : List Pointer := case.operands.toList.map Staged.pointer

/-- Gives back what the case holds on a device. -/
def release (device : Device) : Device := device.releaseAll case.pointers

/-- The host copies of the outputs. -/
def outputs : Outputs Tensor := case.operands.outputs.map Staged.host

/-- The case with another host copy of `D`, which can stand in for what a kernel computes. -/
def withProduct (t : Tensor) : Case :=
  let outputs := case.operands.outputs
  { case with operands := { case.operands with
    outputs := { outputs with d := { outputs.d with host := t } } } }

/-! ## Arguments of a launch -/

/-- The view of alpha and beta over the output. -/
def scalarView : Layout := case.config.broadcast.layout case.problem

/-- The view of a scale factor over the output. -/
def factorView : Layout := ⟨case.problem.outputExtent, .none⟩

/-- The host copies of alpha and beta have an element to pass by value. -/
def scalarArgument (view : Layout) (staged : Staged) : Except Failure ScalarArgument :=
  match staged.host.read? .origin with
  | none => .error (.outOfStorage staged.host.name)
  | some z => .ok ⟨z.re, staged.buffer.map fun _ => { staged.argument with layout := view }⟩

/-- The arguments for a kernel.  Each scalar has to have an element to pass by value. -/
def arguments : Except Failure Launch := do
  let alpha ← scalarArgument case.scalarView case.operands.alpha
  let beta ← scalarArgument case.scalarView case.operands.beta
  let scale ← case.operands.scale.mapM (Scales.mapM (scalarArgument case.factorView))
  return {
    problem := case.problem
    a := case.operands.a.argument
    b := case.operands.b.argument
    accumulator := case.config.typeAccumulator
    c := case.operands.c.argument
    alpha := alpha
    beta := beta
    scale := scale
    bias := case.operands.bias.map Staged.argument
    auxIn := case.operands.auxIn.map Staged.argument
    outputs := case.operands.outputs.map Staged.argument
    activation := case.config.activation
    capabilities := case.config.capabilities }

/-! ## The reference -/

/-- Alpha or beta as the reference reads it. -/
def scalarSource (t : Tensor) : ScalarSource :=
  if case.config.broadcast.onDevice then .broadcast { t with layout := case.scalarView }
  else .value (t.read .origin).re

/-- The number in a tensor of one element. -/
def factorOf (staged : Staged) : Float := (staged.host.read .origin).re

/-- The scale factors as the reference reads them. -/
def factors : Option ScaleFactors :=
  case.operands.scale.map fun s =>
    ⟨factorOf s.a, factorOf s.b, factorOf s.c, factorOf s.d, (s.aux.map factorOf).getD 1⟩

/-- What the reference reads. -/
def fusedProduct : FusedProduct where
  a := case.operands.a.host
  b := case.operands.b.host
  accumulator := case.config.typeAccumulator
  c := case.operands.c.host
  alpha := case.scalarSource case.operands.alpha.host
  beta := case.scalarSource case.operands.beta.host
  scale := case.factors
  bias := case.operands.bias.map Staged.host
  auxIn := case.operands.auxIn.map Staged.host
  activation := case.config.activation

/-- The case with the outputs of the reference computed once more.  Gradients are added to and
running maxima raised, so a case is meant to be computed once. -/
def withReference : Case := { case with reference := case.fusedProduct.apply case.reference }

/-! ## Comparison -/

/-- Copies outputs from a device until one cannot be copied. -/
def pullChannels (device : Device) :
    List Channel → Outputs Staged → Option DeviceError × Outputs Staged
  | [], outputs => (none, outputs)
  | channel :: rest, outputs =>
    match outputs.get? channel with
    | none => pullChannels device rest outputs
    | some staged =>
      match staged.pull device with
      | .ok pulled => pullChannels device rest (outputs.set channel pulled)
      | .error e => (some e, outputs)

/-- The case with its outputs copied from a device, and the error that stopped this, if any. -/
def pullOutputs (device : Device) : Option DeviceError × Case :=
  let (error, outputs) := pullChannels device Channel.all case.operands.outputs
  (error, { case with operands := { case.operands with outputs := outputs } })

/-- The outputs of a channel are expected to have a positive norm.  The running maxima are not, nor
is a product of one element. -/
def expectsNorm (t : Tensor) : Channel → Bool
  | .d => 1 < t.count
  | .biasGradient | .aux => true
  | .absMaxD | .absMaxAux => false

/-- A report with the norm of an output required to be positive, where it is expected to be. -/
def requireNorm (channel : Channel) (report : Report) (t : Tensor) : Report :=
  if expectsNorm t channel then report.requirePositiveNorm t else report

/-- A report with one channel compared, if it is active. -/
def compareChannel (report : Report) (channel : Channel) : Report :=
  match case.reference.get? channel, case.outputs.get? channel with
  | some expected, some actual =>
    (requireNorm channel (requireNorm channel report actual) expected).check channel
      case.comparison expected actual
  | _, _ => report

/-- Compares the host copies of all active outputs with the reference. -/
def compare : Report :=
  Channel.all.foldl case.compareChannel (Report.requirePositiveNorm {} case.operands.c.host)

/-- The tensors of an output channel: the host copy and the reference. -/
def channelTensors (channel : Channel) : List Tensor :=
  (case.outputs.get? channel).toList ++ (case.reference.get? channel).toList

/-- All tensors of the epilogue, each output followed by its reference. -/
def epilogueTensors : List Tensor :=
  [case.operands.c.host] ++ case.channelTensors .d ++
    [case.operands.alpha.host, case.operands.beta.host] ++
    ((case.operands.scale.map Scales.toList).getD []).map Staged.host ++
    (case.operands.bias.map Staged.host).toList ++ case.channelTensors .biasGradient ++
    (case.operands.auxIn.map Staged.host).toList ++ case.channelTensors .aux ++
    case.channelTensors .absMaxD ++ case.channelTensors .absMaxAux

end Case

end FusedGemm
