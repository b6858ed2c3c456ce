import FusedGemm.Gemm.Launch
import FusedGemm.Gemm.Reference

/-!
# The emulated kernel

This kernel reads its operands from device memory, evaluates the fused product on the host and
writes the outputs back, as a launch on a device would.  All reads come before the first write.  It
can be given faults: wrong elements of `D`, running maxima that are not reset, or refusals.
-/

namespace FusedGemm

/-- A defect of an emulated kernel. -/
inductive KernelFault where
  /-- A number is added to the element of `D` at a storage index. -/
  | offsetD (index : Nat) (delta : Float)
  /-- The running maxima start from what is in device memory. -/
  | keepsMaxima
  /-- No arguments are supported. -/
  | refuses
  /-- No launch succeeds. -/
  | failsRun
  deriving DecidableEq

/-- The state of an emulated kernel. -/
structure EmulatedKernel where
  faults : List KernelFault := []
  /-- The number of scratch bytes that it asks for. -/
  workspace : Nat := 0
  /-- The device that it works on, where that is not the one that it is run on. -/
  ownDevice : Option Device := none
  /-- The arguments taken last. -/
  launch : Option Launch := none

/-- What a fused product on a device reads, with the previous contents of its outputs. -/
structure LoadedProduct where
  product : FusedProduct
  outputs : Outputs Tensor

/-! ## Reading operands -/

namespace Device

variable (device : Device)

/-- The tensor at an argument, zeros where there is nothing to read. -/
def load (name : String) (arg : TensorArgument) : Except DeviceError Tensor :=
  let t := Tensor.zeros name arg.type arg.layout
  if 0 < t.count && !arg.pointer.isNull then
    t.withBytes <$> device.read arg.pointer t.byteSize
  else .ok t

/-- The tensor at an optional argument. -/
def loadOption (name : String) : Option TensorArgument → Except DeviceError (Option Tensor)
  | some arg => some <$> device.load name arg
  | none => .ok none

/-- The number or tensor at an argument. -/
def loadScalar (arg : ScalarArgument) : Except DeviceError ScalarSource :=
  match arg.vector with
  | some vector => .broadcast <$> device.load "scalar" vector
  | none => .ok (.value arg.value)

/-- The number at an argument, the first one of a tensor. -/
def loadFactor (arg : ScalarArgument) : Except DeviceError Float :=
  match arg.vector with
  | some vector => do
    let t ← device.load "scalar" vector
    return if 0 < t.count then (t.get 0).re else arg.value
  | none => .ok arg.value

/-- The scale factors at their arguments. -/
def loadFactors : Option (Scales ScalarArgument) → Except DeviceError (Option ScaleFactors)
  | some scale => do
    let s ← scale.mapM device.loadFactor
    return some ⟨s.a, s.b, s.c, s.d, s.aux.getD 1⟩
  | none => .ok none

/-- Where a running maximum starts: at zero, or at what is in device memory. -/
def loadAbsMax (stale : Bool) : Option TensorArgument → Except DeviceError (Option Tensor)
  | some arg =>
    if stale then some <$> device.load "abs_max" arg
    else .ok (some (.zeros "abs_max" arg.type arg.layout))
  | none => .ok none

/-- Reads all operands of a launch.  `D` and `Aux` are overwritten, so they start from zeros. -/
def loadProduct (stale : Bool) (launch : Launch) : Except DeviceError LoadedProduct := do
  let a ← device.load "A" launch.a
  let b ← device.load "B" launch.b
  let c ← device.load "C" launch.c
  let alpha ← device.loadScalar launch.alpha
  let beta ← device.loadScalar launch.beta
  let scale ← device.loadFactors launch.scale
  let bias ← device.loadOption "bias" launch.bias
  let biasGradient ← device.loadOption "dBias" launch.outputs.biasGradient
  let auxIn ← device.loadOption "Aux" launch.auxIn
  let absMaxD ← device.loadAbsMax stale launch.outputs.absMaxD
  let absMaxAux ← device.loadAbsMax stale launch.outputs.absMaxAux
  return {
    product := {
      a := a, b := b, accumulator := launch.accumulator, c := c, alpha := alpha, beta := beta
      scale := scale, bias := bias, auxIn := auxIn, activation := launch.activation }
    outputs := {
      d := .zeros "D" launch.outputs.d.type launch.outputs.d.layout
      absMaxD := absMaxD
      biasGradient := biasGradient
      aux := launch.outputs.aux.map fun arg => .zeros "Aux" arg.type arg.layout
      absMaxAux := absMaxAux } }

/-! ## Writing outputs -/

/-- Writes a tensor to an argument, unless there is nothing to write. -/
def store (arg : TensorArgument) (t : Tensor) : Except DeviceError Device :=
  if 0 < t.count && !arg.pointer.isNull then device.write arg.pointer t.bytes else .ok device

/-- Writes tensors one after the other until one cannot be written.  What was written before that
stays. -/
def storeAll : List (TensorArgument × Tensor) → Device → Option DeviceError × Device
  | [], device => (none, device)
  | (arg, t) :: rest, device =>
    match device.store arg t with
    | .ok device' => storeAll rest device'
    | .error e => (some e, device)

end Device

/-! ## The stages of a launch -/

namespace KernelFault

/-- A tensor with the fault's element changed. -/
def perturb (t : Tensor) : KernelFault → Tensor
  | .offsetD index delta => t.put index (t.get index + .ofReal delta)
  | _ => t

end KernelFault

namespace EmulatedKernel

variable (kernel : EmulatedKernel)

/-- The kernel has a fault. -/
def has (fault : KernelFault) : Bool := kernel.faults.contains fault

/-- The outputs with their arguments, in the order in which they are written. -/
def writes (args : Outputs TensorArgument) (outputs : Outputs Tensor) :
    List (TensorArgument × Tensor) :=
  [Channel.d, .biasGradient, .aux, .absMaxD, .absMaxAux].filterMap fun channel =>
    match args.get? channel, outputs.get? channel with
    | some arg, some t => some (arg, t)
    | _, _ => none

/-- The outputs of a launch, with the faults of `D`. -/
def outputs (loaded : LoadedProduct) : Outputs Tensor :=
  let o := loaded.product.apply loaded.outputs
  { o with d := kernel.faults.foldl KernelFault.perturb o.d }

/-- Evaluates a launch on a device. -/
def execute (launch : Launch) (device : Device) : Option DeviceError × Device :=
  match device.loadProduct (kernel.has .keepsMaxima) launch with
  | .error e => (some e, device)
  | .ok loaded => Device.storeAll (writes launch.outputs (kernel.outputs loaded)) device

/-- The status of an evaluation. -/
def statusOf : Option DeviceError → KernelStatus
  | none => .success
  | some _ => .internalError

/-- The extents of the operands are those of the problem. -/
def fits (launch : Launch) : Bool :=
  launch.a.layout.extent == launch.problem.leftExtent &&
    launch.b.layout.extent == launch.problem.rightExtent &&
    launch.outputs.d.layout.extent == launch.problem.outputExtent

/-- Whether the arguments are supported. -/
def supports (launch : Launch) : KernelStatus :=
  if kernel.has .refuses then .notSupported
  else if fits launch then .success
  else .invalidProblem

/-- Takes the arguments, if there is a scratch buffer where one is needed. -/
def prepare (launch : Launch) (workspace : Pointer) : KernelStatus × EmulatedKernel :=
  if 0 < kernel.workspace && workspace.isNull then (.workspaceNull, kernel)
  else (.success, { kernel with launch := some launch })

/-- Evaluates the arguments taken last, on the kernel's own device if it has one. -/
def run (device : Device) : KernelStatus × EmulatedKernel × Device :=
  match kernel.launch with
  | none => (.internalError, kernel, device)
  | some launch =>
    if kernel.has .failsRun then (.internalError, kernel, device)
    else match kernel.ownDevice with
      | some own =>
        let (error, own') := kernel.execute launch own
        (statusOf error, { kernel with ownDevice := some own' }, device)
      | none =>
        let (error, device') := kernel.execute launch device
        (statusOf error, kernel, device')

end EmulatedKernel

/-- The emulated kernel as a kernel. -/
def emulation : Kernel EmulatedKernel where
  supports := EmulatedKernel.supports
  scratchSize kernel _ := kernel.workspace
  prepare := EmulatedKernel.prepare
  run := EmulatedKernel.run

end FusedGemm
