import FusedGemm.Proofs.Trial.Placement
import FusedGemm.Trial.Operands

/-!
# Admission to device memory

Device memory is asked for one allocation after the other, and what asks for it stops at the first
allocation that is refused.  What is asked for in all decides nonetheless: an action *takes* tensors
of given sizes if it succeeds where there is room for their sum, with the counts of the device grown
by them, and is out of memory everywhere else (`Takes`).  Placing a tensor takes the tensor
(`Takes.place`), one action after another takes what both take (`Takes.bind`), and operands are taken
in the order of their list (`Takes.operands_mapM`).
-/

namespace FusedGemm

/-! ### Room -/

namespace Device

variable {device device' device'' : Device} {sizes sizes' : List Nat}

/-- That many bytes can still be allocated. -/
def HasRoom (device : Device) (n : Nat) : Prop := ∀ available ∈ device.available?, n ≤ available

/-- The counts are those of `device` with one more allocation for each size, but for empty ones. -/
structure Grown (device : Device) (sizes : List Nat) (device' : Device) : Prop where
  capacity_eq : device'.capacity = device.capacity
  allocatedBytes_eq : device'.allocatedBytes = device.allocatedBytes + sizes.sum
  liveAllocations_eq :
    device'.liveAllocations = device.liveAllocations + sizes.countP fun n => 0 < n
  totalAllocations_eq :
    device'.totalAllocations = device.totalAllocations + sizes.countP fun n => 0 < n

theorem Grown.refl (device : Device) : Grown device [] device := ⟨rfl, rfl, rfl, rfl⟩

theorem Grown.trans (h : Grown device sizes device') (h' : Grown device' sizes' device'') :
    Grown device (sizes ++ sizes') device'' where
  capacity_eq := h'.capacity_eq.trans h.capacity_eq
  allocatedBytes_eq := by
    rw [h'.allocatedBytes_eq, h.allocatedBytes_eq, List.sum_append]
    omega
  liveAllocations_eq := by
    rw [h'.liveAllocations_eq, h.liveAllocations_eq, List.countP_append]
    omega
  totalAllocations_eq := by
    rw [h'.totalAllocations_eq, h.totalAllocations_eq, List.countP_append]
    omega

theorem grown_grant (device : Device) {n : Nat} (hn : 0 < n) : Grown device [n] (device.grant n) :=
  ⟨rfl, rfl, by simp [grant, liveAllocations, hn], by simp [grant, hn]⟩

theorem Grown.of_sameShape (h : Grown device sizes device') (hs : SameShape device' device'') :
    Grown device sizes device'' where
  capacity_eq := hs.capacity_eq.trans h.capacity_eq
  allocatedBytes_eq := hs.allocatedBytes_eq.trans h.allocatedBytes_eq
  liveAllocations_eq := by
    have hlength := congrArg List.length hs.shapes_eq
    simp only [shapes, List.length_map] at hlength
    exact hlength.trans h.liveAllocations_eq
  totalAllocations_eq := hs.totalAllocations_eq.trans h.totalAllocations_eq

theorem hasRoom_zero (device : Device) : device.HasRoom 0 := fun _ _ => Nat.zero_le _

theorem HasRoom.mono {m n : Nat} (h : device.HasRoom n) (hle : m ≤ n) : device.HasRoom m :=
  fun available ha => le_trans hle (h available ha)

/-- After a first share has been granted, the room that is left is the room for the rest. -/
theorem Grown.hasRoom_iff (h : Grown device sizes device') (hroom : device.HasRoom sizes.sum)
    (n : Nat) : device'.HasRoom n ↔ device.HasRoom (sizes.sum + n) := by
  unfold HasRoom available? at hroom ⊢
  rw [h.capacity_eq, h.allocatedBytes_eq]
  cases hc : device.capacity with
  | none => simp
  | some capacity =>
    rw [hc] at hroom
    have hfirst : sizes.sum ≤ capacity - device.allocatedBytes := hroom _ rfl
    simp only [Option.map_some, Option.mem_def, Option.some.injEq, forall_eq']
    omega

/-- An allocation is refused exactly where there is no room for it. -/
theorem allocate_of_hasRoom {n : Nat} (h : device.HasRoom n) :
    device.allocate n = .ok (device.nextPointer, device.grant n) := by
  unfold allocate
  cases ha : device.available? with
  | none => rfl
  | some available =>
    have hle := h available ha
    exact if_neg (by omega)

theorem allocate_of_not_hasRoom {n : Nat} (h : ¬ device.HasRoom n) :
    ∃ available, device.allocate n = .error (.outOfMemory n available) := by
  unfold HasRoom at h
  push Not at h
  obtain ⟨available, ha, hlt⟩ := h
  refine ⟨available, ?_⟩
  unfold allocate
  rw [Option.mem_def.mp ha]
  exact if_pos hlt

end Device

/-! ### Staged tensors -/

namespace Staged

variable {device : Device} {t : Tensor}

theorem sameShape_push {staged : Staged} {device' : Device} (hd : device.Sound)
    (h : staged.push device = .ok device') : device.SameShape device' := by
  unfold push at h
  cases hb : staged.buffer with
  | none =>
    rw [hb] at h
    cases h
    exact .refl device
  | some buffer =>
    rw [hb] at h
    dsimp only [Buffer.upload] at h
    split_ifs at h
    · cases h
      exact .refl device
    · exact hd.sameShape_write h

/-- With room for it a tensor is allocated; an empty one is no allocation. -/
theorem allocate_of_hasRoom (h : device.HasRoom t.byteSize) :
    ∃ staged device', Staged.allocate t device = .ok (staged, device') ∧
      device.Grown [t.byteSize] device' := by
  unfold Staged.allocate Buffer.allocate
  by_cases hzero : t.byteSize = 0
  · rw [if_pos hzero, hzero]
    exact ⟨_, device, rfl, rfl, by simp, by simp, by simp⟩
  · rw [if_neg hzero, Device.allocate_of_hasRoom h]
    exact ⟨_, _, rfl, device.grown_grant (Nat.pos_of_ne_zero hzero)⟩

theorem allocate_of_not_hasRoom (h : ¬ device.HasRoom t.byteSize) :
    ∃ available, Staged.allocate t device = .error (.outOfMemory t.byteSize available) := by
  have hzero : t.byteSize ≠ 0 := by
    intro hzero
    rw [hzero] at h
    exact h device.hasRoom_zero
  obtain ⟨available, ha⟩ := Device.allocate_of_not_hasRoom h
  refine ⟨available, ?_⟩
  unfold Staged.allocate Buffer.allocate
  rw [if_neg hzero, ha]
  rfl

end Staged

/-! ### Actions that take memory -/

/-- The bytes of a tensor that is to be in device memory. -/
def Placement.sizes (p : Placement) : List Nat := if p.onDevice then [p.tensor.byteSize] else []

/-- Where there is no room for all the sizes, the action is out of memory. -/
def Starves {α : Type} (action : Acquire α) (sizes : List Nat) : Prop :=
  ∀ lease, lease.device.Sound → ¬ lease.device.HasRoom sizes.sum →
    ∃ requested available lease',
      action lease = (.error (.device (.outOfMemory requested available)), lease')

/-- The action succeeds where there is room for all the sizes, with the counts grown by them, and is
out of memory elsewhere. -/
structure Takes {α : Type} (action : Acquire α) (sizes : List Nat) : Prop where
  succeeds : ∀ lease, lease.device.Sound → lease.device.HasRoom sizes.sum →
    ∃ x lease', action lease = (.ok x, lease') ∧ lease'.device.Sound ∧
      lease.device.Grown sizes lease'.device
  fails : ∀ lease, lease.device.Sound → ¬ lease.device.HasRoom sizes.sum →
    ∃ requested available lease',
      action lease = (.error (.device (.outOfMemory requested available)), lease')

namespace Takes

variable {α β : Type} {sizes sizes' : List Nat}

theorem pure (x : α) : Takes (Pure.pure x) [] where
  succeeds lease hd _ := ⟨x, lease, rfl, hd, .refl lease.device⟩
  fails lease _ hroom := absurd lease.device.hasRoom_zero hroom

theorem ofExcept {x : Except Failure α} {y : α} (h : x = .ok y) : Takes (Acquire.ofExcept x) [] where
  succeeds lease hd _ := ⟨y, lease, by rw [h]; rfl, hd, .refl lease.device⟩
  fails lease _ hroom := absurd lease.device.hasRoom_zero hroom

/-- Memory is short for one action or for the other. -/
theorem bind_starves {action : Acquire α} {next : α → Acquire β} (ha : Takes action sizes)
    (hn : ∀ x, Starves (next x) sizes') : Starves (action >>= next) (sizes ++ sizes') := by
  intro lease hd hroom
  rw [List.sum_append] at hroom
  by_cases hfirst : lease.device.HasRoom sizes.sum
  · obtain ⟨x, lease', hx, hd', hgrown⟩ := ha.succeeds lease hd hfirst
    have hrest := mt (hgrown.hasRoom_iff hfirst _).mp hroom
    obtain ⟨requested, available, lease'', hy⟩ := hn x lease' hd' hrest
    refine ⟨requested, available, lease'', ?_⟩
    rw [Acquire.bind_apply, hx]
    exact hy
  · obtain ⟨requested, available, lease', hx⟩ := ha.fails lease hd hfirst
    refine ⟨requested, available, lease', ?_⟩
    rw [Acquire.bind_apply, hx]

/-- The second action finds the room that the first one has left. -/
theorem bind {action : Acquire α} {next : α → Acquire β} (ha : Takes action sizes)
    (hn : ∀ x, Takes (next x) sizes') : Takes (action >>= next) (sizes ++ sizes') where
  succeeds lease hd hroom := by
    rw [List.sum_append] at hroom
    have hfirst : lease.device.HasRoom sizes.sum := hroom.mono (Nat.le_add_right _ _)
    obtain ⟨x, lease', hx, hd', hgrown⟩ := ha.succeeds lease hd hfirst
    have hrest := (hgrown.hasRoom_iff hfirst _).mpr hroom
    obtain ⟨y, lease'', hy, hd'', hgrown'⟩ := (hn x).succeeds lease' hd' hrest
    refine ⟨y, lease'', ?_, hd'', hgrown.trans hgrown'⟩
    rw [Acquire.bind_apply, hx]
    exact hy
  fails := ha.bind_starves fun x => (hn x).fails

/-- **Placing a tensor takes its bytes**, if it is to be in device memory. -/
theorem place (p : Placement) : Takes (Acquire.place p) p.sizes := by
  obtain ⟨t, onDevice⟩ := p
  cases onDevice with
  | false => exact pure (Staged.hostOnly t)
  | true =>
    have hsum : ((⟨t, true⟩ : Placement).sizes).sum = t.byteSize := List.sum_singleton
    refine ⟨fun lease hd hroom => ?_, fun lease hd hroom => ?_⟩
    · rw [hsum] at hroom
      obtain ⟨staged, device', hallocate, hgrown⟩ := Staged.allocate_of_hasRoom hroom
      obtain ⟨-, -, -, device'', hpush, hsound, -, -⟩ := Staged.push_of_allocate hd hallocate
      have hd' : device'.Sound := by
        rcases Staged.allocate_eq_ok hallocate with ⟨-, -, rfl⟩ | ⟨-, -, rfl⟩
        · exact hd
        · exact hd.grant _
      refine ⟨staged, ⟨device'', staged.pointer :: lease.held⟩, ?_, hsound,
        hgrown.of_sameShape (Staged.sameShape_push hd' hpush)⟩
      show (Acquire.hold t >>= Acquire.push) lease = _
      rw [Acquire.bind_apply]
      simp only [Acquire.hold, Acquire.push, hallocate, hpush]
    · rw [hsum] at hroom
      obtain ⟨available, hallocate⟩ := Staged.allocate_of_not_hasRoom hroom
      refine ⟨t.byteSize, available, lease, ?_⟩
      show (Acquire.hold t >>= Acquire.push) lease = _
      rw [Acquire.bind_apply]
      simp only [Acquire.hold, hallocate]

/-! ### Operands -/

section Operands

variable {f : α → Acquire Staged} {g : α → List Nat}

theorem option_mapM {x : Option α} (h : ∀ a ∈ x.toList, Takes (f a) (g a)) :
    Takes (x.mapM f) (x.toList.flatMap g) := by
  cases x with
  | none => exact pure none
  | some a =>
    have ha := bind (h a (by simp)) fun staged => pure (some staged)
    simpa using ha

theorem scales_mapM {s : Scales α} (h : ∀ a ∈ s.toList, Takes (f a) (g a)) :
    Takes (s.mapM f) (s.toList.flatMap g) := by
  have hlist : s.toList.flatMap g =
      g s.a ++ (g s.b ++ (g s.c ++ (g s.d ++ s.aux.toList.flatMap g))) := by
    simp [Scales.toList]
  rw [hlist]
  unfold Scales.mapM
  refine bind (h s.a (by simp [Scales.toList])) fun a => ?_
  refine bind (h s.b (by simp [Scales.toList])) fun b => ?_
  refine bind (h s.c (by simp [Scales.toList])) fun c => ?_
  refine bind (h s.d (by simp [Scales.toList])) fun d => ?_
  cases haux : s.aux with
  | none => exact pure _
  | some x =>
    have hx := bind (h x (by simp [Scales.toList, haux])) fun aux =>
      pure (⟨a, b, c, d, some aux⟩ : Scales Staged)
    simpa using hx

theorem option_scales_mapM {x : Option (Scales α)}
    (h : ∀ a ∈ (x.map Scales.toList).getD [], Takes (f a) (g a)) :
    Takes (x.mapM (Scales.mapM f)) (((x.map Scales.toList).getD []).flatMap g) := by
  cases x with
  | none => exact pure none
  | some s =>
    have hs := bind (scales_mapM h) fun s' => pure (some s')
    simpa using hs

/-- **Operands are taken in the order of their list.** -/
theorem operands_mapM {o : Operands α} (h : ∀ a ∈ o.toList, Takes (f a) (g a)) :
    Takes (o.mapM f) (o.toList.flatMap g) := by
  have hlist : o.toList.flatMap g = g o.a ++ (g o.b ++ (g o.c ++ (g o.outputs.d ++ (g o.alpha ++
      (g o.beta ++ (((o.scale.map Scales.toList).getD []).flatMap g ++ (o.bias.toList.flatMap g ++
      (o.outputs.biasGradient.toList.flatMap g ++ (o.auxIn.toList.flatMap g ++
      (o.outputs.aux.toList.flatMap g ++ (o.outputs.absMaxD.toList.flatMap g ++
      (o.outputs.absMaxAux.toList.flatMap g ++ [])))))))))))) := by
    simp [Operands.toList]
  have hscale : ∀ a ∈ (o.scale.map Scales.toList).getD [], Takes (f a) (g a) := by
    intro a ha
    exact h a (by simp only [Operands.toList, List.mem_append, ha, or_true, true_or])
  rw [hlist]
  unfold Operands.mapM
  refine bind (h o.a (by simp [Operands.toList])) fun a => ?_
  refine bind (h o.b (by simp [Operands.toList])) fun b => ?_
  refine bind (h o.c (by simp [Operands.toList])) fun c => ?_
  refine bind (h o.outputs.d (by simp [Operands.toList])) fun d => ?_
  refine bind (h o.alpha (by simp [Operands.toList])) fun alpha => ?_
  refine bind (h o.beta (by simp [Operands.toList])) fun beta => ?_
  refine bind (option_scales_mapM hscale) fun scale => ?_
  refine bind (option_mapM fun a ha => h a (by simp_all [Operands.toList])) fun bias => ?_
  refine bind (option_mapM fun a ha => h a (by simp_all [Operands.toList])) fun biasGradient => ?_
  refine bind (option_mapM fun a ha => h a (by simp_all [Operands.toList])) fun auxIn => ?_
  refine bind (option_mapM fun a ha => h a (by simp_all [Operands.toList])) fun aux => ?_
  refine bind (option_mapM fun a ha => h a (by simp_all [Operands.toList])) fun absMaxD => ?_
  exact bind (option_mapM fun a ha => h a (by simp_all [Operands.toList])) fun absMaxAux => pure _

end Operands

/-! ### Running an action -/

theorem run_of_hasRoom {action : Acquire α} {device : Device} (h : Takes action sizes)
    (hd : device.Sound) (hroom : device.HasRoom sizes.sum) :
    ∃ x device', action.run device = (.ok x, device') ∧ device.Grown sizes device' := by
  obtain ⟨x, lease, hx, -, hgrown⟩ := h.succeeds ⟨device, []⟩ hd hroom
  refine ⟨x, lease.device, ?_, hgrown⟩
  unfold Acquire.run ExceptT.run
  rw [hx]

end Takes

theorem Starves.run {α : Type} {action : Acquire α} {sizes : List Nat} {device : Device}
    (h : Starves action sizes) (hd : device.Sound) (hroom : ¬ device.HasRoom sizes.sum) :
    ∃ requested available device',
      action.run device = (.error (.device (.outOfMemory requested available)), device') := by
  obtain ⟨requested, available, lease, hx⟩ := h ⟨device, []⟩ hd hroom
  refine ⟨requested, available, lease.device.releaseAll lease.held, ?_⟩
  unfold Acquire.run ExceptT.run
  rw [hx]

end FusedGemm
