import FusedGemm.Device.Buffer
import FusedGemm.Fusion.Features
import FusedGemm.Gemm.Outputs
import FusedGemm.Gemm.Problem

/-!
# Launch arguments and kernels

A `Launch` is what a kernel is told: the problem, the tensors as pointers with types and layouts,
and the features of the epilogue.  A `Kernel` is launched in stages.  Its state is a value of a type
of its own; it touches the device where it is prepared and where it runs.
-/

namespace FusedGemm

/-! ## Arguments -/

/-- A number passed by value, and the tensor to read instead of it, if there is one.  The layout of
that tensor is over the whole output. -/
structure ScalarArgument where
  value : Float
  vector : Option TensorArgument
  deriving DecidableEq

namespace ScalarArgument

/-- The stride over the output; none where the number is passed by value. -/
def stride (s : ScalarArgument) : Stride :=
  (s.vector.map fun (t : TensorArgument) => t.layout.stride).getD .none

end ScalarArgument

/-- Something for each scale factor; the one of `Aux` exists only where `Aux` is an output. -/
structure Scales (α : Type) where
  a : α
  b : α
  c : α
  d : α
  aux : Option α
  deriving DecidableEq

namespace Scales

variable {α β : Type}

/-- All of them in order. -/
def toList (s : Scales α) : List α := [s.a, s.b, s.c, s.d] ++ s.aux.toList

/-- Applies a function that can fail to each in order. -/
def mapM {m : Type → Type} [Monad m] (f : α → m β) (s : Scales α) : m (Scales β) := do
  let a ← f s.a
  let b ← f s.b
  let c ← f s.c
  let d ← f s.d
  match s.aux with
  | some x => return ⟨a, b, c, d, some (← f x)⟩
  | none => return ⟨a, b, c, d, none⟩

end Scales

/-- The arguments of a launch. -/
structure Launch where
  problem : Problem
  a : TensorArgument
  b : TensorArgument
  accumulator : ElementType
  c : TensorArgument
  alpha : ScalarArgument
  beta : ScalarArgument
  scale : Option (Scales ScalarArgument)
  bias : Option TensorArgument
  auxIn : Option TensorArgument
  outputs : Outputs TensorArgument
  activation : Activation
  capabilities : Capabilities

/-! ## Kernels -/

/-- What a stage of a launch reports. -/
inductive KernelStatus where
  | success
  | misalignedOperand
  | invalidProblem
  | notSupported
  | workspaceNull
  | archMismatch
  | internalError
  deriving DecidableEq

namespace KernelStatus

/-- The stage went well. -/
def isSuccess (s : KernelStatus) : Bool := s == .success

/-- The text of a status. -/
def message : KernelStatus → String
  | .success => "success"
  | .misalignedOperand => "misaligned operand"
  | .invalidProblem => "invalid problem"
  | .notSupported => "not supported"
  | .workspaceNull => "workspace is null"
  | .archMismatch => "architecture mismatch"
  | .internalError => "internal error"

end KernelStatus

/-- A kernel with a state of type `σ`. -/
structure Kernel (σ : Type) where
  /-- Whether the kernel supports the arguments. -/
  supports : σ → Launch → KernelStatus
  /-- The number of scratch bytes it needs. -/
  scratchSize : σ → Launch → Nat
  /-- Takes the arguments and a scratch buffer. -/
  prepare : σ → Launch → Pointer → KernelStatus × σ
  /-- What preparing does to the device, nothing for most kernels. -/
  prepareOn : σ → Launch → Pointer → Device → Device := fun _ _ _ device => device
  /-- Computes the outputs. -/
  run : σ → Device → KernelStatus × σ × Device

end FusedGemm
