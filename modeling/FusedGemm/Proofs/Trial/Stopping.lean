import FusedGemm.Proofs.Trial.Admission

/-!
# Stopping at a failure

An action *stops* with a failure after tensors of given sizes if it comes to that failure where
there is room for them, and is out of memory elsewhere (`Stops`).  What comes after the failure is
not run (`Stops.bind`), and what comes before it takes its own share of memory
(`Stops.bind_of_takes`).  So operands stop at the first one that cannot be had
(`Stops.operands_mapM`), for which they are seen as the list in which they are visited
(`Operands.mapM_toList`).
-/

namespace FusedGemm

/-! ### Operands as a list -/

section Lists
variable {m : Type → Type} [Monad m] [LawfulMonad m] {α β : Type}

theorem option_mapM_toList (f : α → m β) (x : Option α) :
    x.toList.mapM f = Option.toList <$> x.mapM f := by
  cases x <;> simp

theorem Scales.mapM_toList (f : α → m β) (s : Scales α) :
    s.toList.mapM f = Scales.toList <$> s.mapM f := by
  obtain ⟨a, b, c, d, aux⟩ := s
  cases aux <;> simp [Scales.mapM, Scales.toList]

/-- Operands are visited in the order of their list. -/
theorem Operands.mapM_toList (f : α → m β) (o : Operands α) :
    o.toList.mapM f = Operands.toList <$> o.mapM f := by
  have hscale : ((o.scale.map Scales.toList).getD []).mapM f =
      (fun s => (s.map Scales.toList).getD []) <$> o.scale.mapM (Scales.mapM f) := by
    cases o.scale <;> simp [Scales.mapM_toList]
  unfold Operands.mapM
  simp [Operands.toList, List.mapM_append, option_mapM_toList, hscale]

end Lists

/-! ### Actions that stop -/

/-- The action fails with `e` where there is room for all the sizes, and is out of memory
elsewhere. -/
structure Stops {α : Type} (action : Acquire α) (sizes : List Nat) (e : Failure) : Prop where
  stops : ∀ lease, lease.device.Sound → lease.device.HasRoom sizes.sum →
    ∃ lease', action lease = (.error e, lease')
  fails : Starves action sizes

/-- Several tensors are taken one after the other. -/
theorem Takes.list_mapM {α β : Type} {f : α → Acquire β} {g : α → List Nat} {xs : List α}
    (h : ∀ x ∈ xs, Takes (f x) (g x)) : Takes (xs.mapM f) (xs.flatMap g) := by
  induction xs with
  | nil => exact Takes.pure []
  | cons x xs ih =>
    rw [List.mapM_cons, List.flatMap_cons]
    refine Takes.bind (h x List.mem_cons_self) fun y => ?_
    have hrest := (ih fun x' hx' => h x' (List.mem_cons_of_mem x hx')).bind fun ys =>
      Takes.pure (y :: ys)
    rwa [List.append_nil] at hrest

namespace Stops

variable {α β : Type} {sizes sizes' : List Nat} {e : Failure}

theorem ofExcept {x : Except Failure α} (h : x = .error e) : Stops (Acquire.ofExcept x) [] e where
  stops lease _ _ := ⟨lease, by rw [h]; rfl⟩
  fails lease _ hroom := absurd lease.device.hasRoom_zero hroom

/-- What comes after the failure is not run. -/
theorem bind {action : Acquire α} (ha : Stops action sizes e) (next : α → Acquire β) :
    Stops (action >>= next) sizes e where
  stops lease hd hroom := by
    obtain ⟨lease', hx⟩ := ha.stops lease hd hroom
    refine ⟨lease', ?_⟩
    rw [Acquire.bind_apply, hx]
  fails lease hd hroom := by
    obtain ⟨requested, available, lease', hx⟩ := ha.fails lease hd hroom
    refine ⟨requested, available, lease', ?_⟩
    rw [Acquire.bind_apply, hx]

/-- The failure comes after some tensors have been taken. -/
theorem bind_of_takes {action : Acquire α} {next : α → Acquire β} (ha : Takes action sizes)
    (hn : ∀ x, Stops (next x) sizes' e) : Stops (action >>= next) (sizes ++ sizes') e where
  stops lease hd hroom := by
    rw [List.sum_append] at hroom
    have hfirst : lease.device.HasRoom sizes.sum := hroom.mono (Nat.le_add_right _ _)
    obtain ⟨x, lease', hx, hd', hgrown⟩ := ha.succeeds lease hd hfirst
    obtain ⟨lease'', hy⟩ := (hn x).stops lease' hd' ((hgrown.hasRoom_iff hfirst _).mpr hroom)
    refine ⟨lease'', ?_⟩
    rw [Acquire.bind_apply, hx]
    exact hy
  fails := ha.bind_starves fun x => (hn x).fails

theorem list_mapM {f : α → Acquire β} {g : α → List Nat} {before after : List α} {x : α}
    (hbefore : ∀ y ∈ before, Takes (f y) (g y)) (hx : Stops (f x) [] e) :
    Stops ((before ++ x :: after).mapM f) (before.flatMap g) e := by
  rw [List.mapM_append, List.mapM_cons]
  have hall := bind_of_takes (Takes.list_mapM hbefore) fun ys =>
    (hx.bind fun y => (do return y :: (← after.mapM f) : Acquire (List β))).bind fun ys' =>
      (Pure.pure (ys ++ ys') : Acquire (List β))
  rwa [List.append_nil] at hall

theorem of_map {action : Acquire α} {f : α → β} (h : Stops (f <$> action) sizes e) :
    Stops action sizes e := by
  have hmap : ∀ lease e' lease', (f <$> action) lease = (.error e', lease') →
      action lease = (.error e', lease') := by
    intro lease e' lease' herror
    rw [map_eq_pure_bind, Acquire.bind_apply] at herror
    cases hr : action lease with
    | mk r lease'' =>
      rw [hr] at herror
      cases r with
      | ok x => cases herror
      | error e'' =>
        cases herror
        rfl
  refine ⟨fun lease hd hroom => ?_, fun lease hd hroom => ?_⟩
  · obtain ⟨lease', herror⟩ := h.stops lease hd hroom
    exact ⟨lease', hmap _ _ _ herror⟩
  · obtain ⟨requested, available, lease', herror⟩ := h.fails lease hd hroom
    exact ⟨requested, available, lease', hmap _ _ _ herror⟩

/-- **Operands stop at the first one that cannot be had.** -/
theorem operands_mapM {f : α → Acquire Staged} {g : α → List Nat} {o : Operands α}
    {before after : List α} {x : α} (ho : o.toList = before ++ x :: after)
    (hbefore : ∀ y ∈ before, Takes (f y) (g y)) (hx : Stops (f x) [] e) :
    Stops (o.mapM f) (before.flatMap g) e := by
  have hlist : Stops ((before ++ x :: after).mapM f) (before.flatMap g) e := list_mapM hbefore hx
  rw [← ho, Operands.mapM_toList] at hlist
  exact hlist.of_map

theorem run_of_hasRoom {action : Acquire α} {device : Device} (h : Stops action sizes e)
    (hd : device.Sound) (hroom : device.HasRoom sizes.sum) :
    ∃ device', action.run device = (.error e, device') := by
  obtain ⟨lease, hx⟩ := h.stops ⟨device, []⟩ hd hroom
  refine ⟨lease.device.releaseAll lease.held, ?_⟩
  unfold Acquire.run ExceptT.run
  rw [hx]

/-- The run fails in one way or the other. -/
theorem run_cases {action : Acquire α} {device : Device} (h : Stops action sizes e)
    (hd : device.Sound) : ∃ e' after, action.run device = (.error e', after) ∧
      (device.HasRoom sizes.sum ∧ e' = e ∨ ¬ device.HasRoom sizes.sum ∧
        ∃ requested available, e' = .device (.outOfMemory requested available)) := by
  by_cases hroom : device.HasRoom sizes.sum
  · obtain ⟨after, herror⟩ := h.run_of_hasRoom hd hroom
    exact ⟨e, after, herror, Or.inl ⟨hroom, rfl⟩⟩
  · obtain ⟨requested, available, after, herror⟩ := Starves.run h.fails hd hroom
    exact ⟨_, after, herror, Or.inr ⟨hroom, requested, available, rfl⟩⟩

end Stops

end FusedGemm
