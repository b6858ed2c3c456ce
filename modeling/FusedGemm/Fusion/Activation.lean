import FusedGemm.Numeric.Complex

/-!
# Activations

An activation is applied to each output of a forward pass.  A backward pass multiplies its gradient
by the derivative at the value that the forward pass saved.  All but the identity drop the imaginary
part.
-/

namespace FusedGemm

/-- The function applied to each output. -/
inductive Activation where
  | identity
  /-- Numbers below zero become zero. -/
  | relu
  | sigmoid
  deriving DecidableEq

namespace Activation

/-- All activations. -/
def all : List Activation := [.identity, .relu, .sigmoid]

/-- The name of an activation in configurations. -/
def name : Activation → String
  | .identity => "Identity"
  | .relu => "Relu"
  | .sigmoid => "Sigmoid"

/-- The logistic function. -/
def logistic (x : Float) : Float := 1.0 / (1.0 + (-x).exp)

/-- The value of an activation. -/
def apply (f : Activation) (z : ComplexFloat) : ComplexFloat :=
  match f with
  | .identity => z
  | .relu => .ofReal (maxNumber z.re 0)
  | .sigmoid => .ofReal (logistic z.re)

/-- The derivative of an activation at a real number. -/
def derivative (f : Activation) (x : Float) : Float :=
  match f with
  | .identity => 1.0
  | .relu => if 0.0 < x then 1.0 else 0.0
  | .sigmoid => logistic x * (1.0 - logistic x)

end Activation

end FusedGemm
