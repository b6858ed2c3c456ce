import FusedGemm.Gemm.Launch
import Mathlib

/-!
# Related outputs and factors

Outputs are related if their channels are, which is `Option.Rel` for those that may be inactive; so
are scale factors.  The lemmas on options say what is related to one that is active, and how a
relation goes through a map.
-/

namespace FusedGemm

section Options
variable {α β γ δ : Type} {R : α → β → Prop}

theorem isSome_of_rel {x : Option α} {y : Option β} (h : Option.Rel R x y) :
    y.isSome = x.isSome := by
  cases h <;> rfl

theorem eq_none_of_rel {y : Option β} (h : Option.Rel R none y) : y = none := by
  cases h
  rfl

theorem exists_of_rel_some {x : α} {y : Option β} (h : Option.Rel R (some x) y) :
    ∃ y', y = some y' ∧ R x y' := by
  cases h with
  | some h => exact ⟨_, rfl, h⟩

theorem exists_of_rel_of_some {x : Option α} {y : β} (h : Option.Rel R x (some y)) :
    ∃ x', x = some x' ∧ R x' y := by
  cases h with
  | some h => exact ⟨_, rfl, h⟩

theorem rel_refl {R : α → α → Prop} (h : ∀ a, R a a) (x : Option α) : Option.Rel R x x := by
  cases x with
  | none => exact .none
  | some a => exact .some (h a)

theorem rel_map_of_mem {f : α → β} {x : Option α} (h : ∀ a ∈ x, R a (f a)) :
    Option.Rel R x (x.map f) := by
  cases x with
  | none => exact .none
  | some a => exact .some (h a rfl)

theorem rel_map {f : α → β} (h : ∀ x, R x (f x)) (x : Option α) : Option.Rel R x (x.map f) :=
  rel_map_of_mem fun a _ => h a

theorem rel_map_both {f : γ → α} {g : γ → β} {x : Option γ}
    (h : ∀ a, x = some a → R (f a) (g a)) : Option.Rel R (x.map f) (x.map g) := by
  cases x with
  | none => exact .none
  | some a => exact .some (h a rfl)

theorem rel_map_right {S : β → γ → Prop} {f : α → γ} {x : Option α} {y : Option β}
    (hS : ∀ a, x = some a → ∀ b, R a b → S b (f a)) (h : Option.Rel R x y) :
    Option.Rel S y (x.map f) := by
  cases h with
  | some hR => exact .some (hS _ rfl _ hR)
  | none => exact .none

theorem rel_map_map {S : γ → δ → Prop} {f : α → γ} {g : β → δ}
    (h : ∀ x y, R x y → S (f x) (g y)) {x : Option α} {y : Option β} (hxy : Option.Rel R x y) :
    Option.Rel S (x.map f) (y.map g) := by
  cases hxy with
  | some hR => exact .some (h _ _ hR)
  | none => exact .none

theorem map_eq_of_rel {R : α → α → Prop} {f : α → β} (hf : ∀ x y, R x y → f y = f x)
    {x y : Option α} (h : Option.Rel R x y) : y.map f = x.map f := by
  cases h with
  | some hR => exact congrArg some (hf _ _ hR)
  | none => rfl

end Options

section Related
variable {α β : Type}

/-- The factors are related one by one. -/
structure Scales.Related (R : α → β → Prop) (s : Scales α) (s' : Scales β) : Prop where
  a : R s.a s'.a
  b : R s.b s'.b
  c : R s.c s'.c
  d : R s.d s'.d
  aux : Option.Rel R s.aux s'.aux

/-- The outputs are related one by one. -/
structure Outputs.Related (R : α → β → Prop) (o : Outputs α) (o' : Outputs β) : Prop where
  d : R o.d o'.d
  absMaxD : Option.Rel R o.absMaxD o'.absMaxD
  biasGradient : Option.Rel R o.biasGradient o'.biasGradient
  aux : Option.Rel R o.aux o'.aux
  absMaxAux : Option.Rel R o.absMaxAux o'.absMaxAux

theorem Outputs.Related.get? {R : α → β → Prop} {o : Outputs α} {o' : Outputs β}
    (h : Outputs.Related R o o') (channel : Channel) :
    Option.Rel R (o.get? channel) (o'.get? channel) := by
  cases channel with
  | d => exact .some h.d
  | absMaxD => exact h.absMaxD
  | biasGradient => exact h.biasGradient
  | aux => exact h.aux
  | absMaxAux => exact h.absMaxAux

theorem Outputs.map_eq_of_related {R : α → α → Prop} {f : α → β}
    (hf : ∀ x y, R x y → f y = f x) {o o' : Outputs α} (h : Outputs.Related R o o') :
    o'.map f = o.map f := by
  unfold map
  rw [hf _ _ h.d, map_eq_of_rel hf h.absMaxD, map_eq_of_rel hf h.biasGradient,
    map_eq_of_rel hf h.aux, map_eq_of_rel hf h.absMaxAux]

end Related

end FusedGemm
