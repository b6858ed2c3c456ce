/-!
# Output channels

A fused product has up to five outputs.  `Outputs α` holds one `α` for each output that is active;
the product itself always is.  `Outputs.get?` looks one up by its `Channel`.
-/

namespace FusedGemm

/-- An output of a fused product. -/
inductive Channel where
  /-- The product. -/
  | d
  /-- The largest absolute value of the product. -/
  | absMaxD
  /-- The gradient of the bias. -/
  | biasGradient
  /-- The values before the activation. -/
  | aux
  /-- The largest absolute value of those. -/
  | absMaxAux
  deriving DecidableEq

namespace Channel

/-- All channels, in the order in which outputs are copied and compared. -/
def all : List Channel := [.d, .absMaxD, .biasGradient, .aux, .absMaxAux]

/-- The name of a channel in reports. -/
def name : Channel → String
  | .d => "D"
  | .absMaxD => "abs_max_D"
  | .biasGradient => "dBias"
  | .aux => "Aux"
  | .absMaxAux => "abs_max_Aux"

end Channel

/-- One `α` for each active output. -/
structure Outputs (α : Type) where
  d : α
  absMaxD : Option α
  biasGradient : Option α
  aux : Option α
  absMaxAux : Option α

namespace Outputs

variable {α β : Type}

/-- What belongs to a channel, if it is active. -/
def get? (o : Outputs α) : Channel → Option α
  | .d => some o.d
  | .absMaxD => o.absMaxD
  | .biasGradient => o.biasGradient
  | .aux => o.aux
  | .absMaxAux => o.absMaxAux

/-- Applies a function to every active output. -/
def map (f : α → β) (o : Outputs α) : Outputs β where
  d := f o.d
  absMaxD := o.absMaxD.map f
  biasGradient := o.biasGradient.map f
  aux := o.aux.map f
  absMaxAux := o.absMaxAux.map f

/-- Replaces what belongs to a channel; an inactive channel stays inactive. -/
def set (o : Outputs α) (channel : Channel) (x : α) : Outputs α :=
  match channel with
  | .d => { o with d := x }
  | .absMaxD => { o with absMaxD := o.absMaxD.map fun _ => x }
  | .biasGradient => { o with biasGradient := o.biasGradient.map fun _ => x }
  | .aux => { o with aux := o.aux.map fun _ => x }
  | .absMaxAux => { o with absMaxAux := o.absMaxAux.map fun _ => x }

/-- The active outputs in the order of their channels. -/
def toList (o : Outputs α) : List (Channel × α) :=
  Channel.all.filterMap fun channel => (o.get? channel).map fun x => (channel, x)

@[simp] theorem get?_map (f : α → β) (o : Outputs α) (channel : Channel) :
    (o.map f).get? channel = (o.get? channel).map f := by
  cases channel <;> rfl

/-- Replacing one output leaves the others alone. -/
theorem get?_set_of_ne {o : Outputs α} {c c' : Channel} (h : c ≠ c') (x : α) :
    (o.set c x).get? c' = o.get? c' := by
  cases c <;> cases c' <;> first | rfl | exact absurd rfl h

/-- An active output is replaced, an inactive one stays so. -/
theorem get?_set_self (o : Outputs α) (c : Channel) (x : α) :
    (o.set c x).get? c = (o.get? c).map fun _ => x := by
  cases c <;> rfl

end Outputs

end FusedGemm
