import FusedGemm.Random.Draw

/-!
# Draws and turns

A draw moves the generator on, and `Draw.after` says where it stands after a number of draws.

A loop without a bound takes turns.  `Draw.Finds` says that the turns come to an end, and then the
loop gives what the last of them has found (`Draw.Finds.repeatM_eq`).  Where they do not, nothing is
known of it.  The words that a draw takes from the generator are counted by `Draw.Takes`, and a
number of the normal distribution that is found takes at least one (`Draw.FindsNormal.exists_words`).
-/

namespace FusedGemm

namespace Draw

variable {α β σ : Type}

theorem bind_apply (d : Draw α) (f : α → Draw β) (g : Generator) :
    (d >>= f) g = f (d g).1 (d g).2 := rfl

/-! ### One draw after the other -/

/-- The generator after a number of draws. -/
def after (d : Draw α) : Nat → Generator → Generator
  | 0, g => g
  | n + 1, g => d.after n (d g).2

/-- What is drawn after `i` other draws. -/
def nth (d : Draw α) (i : Nat) (g : Generator) : α := (d (d.after i g)).1

theorem after_add (d : Draw α) (m n : Nat) (g : Generator) :
    d.after (m + n) g = d.after n (d.after m g) := by
  induction m generalizing g with
  | zero => rw [Nat.zero_add]; rfl
  | succ m ih =>
    rw [Nat.add_right_comm]
    exact ih (d g).2

theorem after_succ (d : Draw α) (n : Nat) (g : Generator) :
    d.after (n + 1) g = (d (d.after n g)).2 := d.after_add n 1 g

/-! ### Words -/

/-- The draw takes at least so many words. -/
def Takes (words : Nat) (d : Draw α) : Prop :=
  ∀ g, ∃ n, words ≤ n ∧ (d g).2 = word.after n g

section Takes
variable {d d' : Draw α} {words : Nat}

theorem Takes.zero (h : d.Takes words) : d.Takes 0 := by
  intro g
  obtain ⟨n, -, heq⟩ := h g
  exact ⟨n, Nat.zero_le n, heq⟩

theorem takes_pure (x : α) : Takes 0 (pure x : Draw α) := fun _ => ⟨0, Nat.le_refl 0, rfl⟩

theorem takes_one (h : ∀ g, (d g).2 = g.next.2) : d.Takes 1 := fun g => ⟨1, Nat.le_refl 1, h g⟩

/-- A draw takes what its first part does, and possibly more. -/
theorem Takes.bind {f : α → Draw β} (hd : d.Takes words) (hf : ∀ x, (f x).Takes 0) :
    (d >>= f).Takes words := by
  intro g
  obtain ⟨m, hm, hg⟩ := hd g
  obtain ⟨n, -, hrest⟩ := hf (d g).1 (d g).2
  refine ⟨m + n, Nat.le_add_right_of_le hm, ?_⟩
  rw [after_add, ← hg, ← hrest, bind_apply]

theorem Takes.ite {p : Prop} [Decidable p] (hd : d.Takes words) (hd' : d'.Takes words) :
    Takes words (if p then d else d') := by
  split
  · exact hd
  · exact hd'

end Takes

/-! ### Turns -/

/-- The turns from the state `s` and the generator `g` on come to an end: the last of them finds `x`
and leaves `g'`. -/
inductive Finds (turn : σ → Draw (σ ⊕ α)) : σ → Generator → α → Generator → Prop
  | found {s : σ} {g g' : Generator} {x : α} (h : turn s g = (.inr x, g')) : Finds turn s g x g'
  | again {s s' : σ} {g g₁ g' : Generator} {x : α} (h : turn s g = (.inl s', g₁))
      (rest : Finds turn s' g₁ x g') : Finds turn s g x g'

section Finds
variable {turn : σ → Draw (σ ⊕ α)} {s : σ} {g g' : Generator} {x : α}

/-- A loop is one turn, and the loop again where that has found nothing. -/
theorem repeatM_apply [Nonempty α] (turn : σ → Draw (σ ⊕ α)) (s : σ) (g : Generator) :
    repeatM turn s g = match turn s g with
      | (.inl s', g') => repeatM turn s' g'
      | (.inr x, g') => (x, g') := by
  have : Nonempty Generator := ⟨g⟩
  rw [repeatM_eq_of_monadTail, repeatM.body, bind_apply]
  obtain ⟨next, g'⟩ := turn s g
  cases next <;> rfl

/-- **A loop gives what its last turn has found.** -/
theorem Finds.repeatM_eq [Nonempty α] (h : Finds turn s g x g') : repeatM turn s g = (x, g') := by
  induction h with
  | found h => rw [repeatM_apply, h]
  | again h _ ih => rw [repeatM_apply, h, ← ih]

/-- The turns take at least what each of them does. -/
theorem Finds.exists_words {words : Nat} (h : Finds turn s g x g')
    (hturn : ∀ s, (turn s).Takes words) : ∃ n ≥ words, g' = word.after n g := by
  induction h with
  | @found s g g' x h =>
    obtain ⟨n, hn, heq⟩ := hturn s g
    rw [h] at heq
    exact ⟨n, hn, heq⟩
  | @again s s' g g₁ g' x h _ ih =>
    obtain ⟨m, -, heq⟩ := hturn s g
    obtain ⟨n, hn, rfl⟩ := ih
    rw [h] at heq
    exact ⟨m + n, Nat.le_add_left_of_le hn, by rw [after_add, ← heq]⟩

end Finds

/-! ### The normal distribution -/

/-- From the generator `g` on the number `x` of the normal distribution is found. -/
def FindsNormal : Generator → Float → Generator → Prop := Finds normalTurn .strips

theorem takes_normalTurn (region : NormalRegion) : (normalTurn region).Takes 1 := by
  cases region with
  | strips =>
    refine (takes_one (d := word) fun _ => rfl).bind fun w => ?_
    refine (takes_pure _).ite ((takes_pure _).ite ?_)
    refine (takes_one (d := unit) fun _ => rfl).zero.bind fun v => ?_
    exact (takes_pure _).ite (takes_pure _)
  | tail u =>
    refine (takes_one (d := openUnit) fun _ => rfl).bind fun first => ?_
    refine (takes_one (d := openUnit) fun _ => rfl).zero.bind fun second => ?_
    exact (takes_pure _).ite (takes_pure _)

section FindsNormal
variable {g g' : Generator} {x : Float} (h : FindsNormal g x g')
include h

theorem FindsNormal.standardNormal_eq : standardNormal g = (x, g') := h.repeatM_eq

/-- **A number of the normal distribution takes a word.** -/
theorem FindsNormal.exists_words : ∃ n ≥ 1, g' = word.after n g :=
  Finds.exists_words h takes_normalTurn

end FindsNormal

end Draw

end FusedGemm
