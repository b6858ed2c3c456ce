import FusedGemm.Proofs.Gemm.KernelMemory
import FusedGemm.Proofs.Trial.Materialization
import FusedGemm.Proofs.Trial.Stages

/-!
# Rounds give back what they acquire

Wherever a round stops, it has released what it has allocated and nothing else.  A round with a
kernel that neither allocates nor frees leaves the shapes of the allocations from before
(`shapes_run`); if the kernel writes only where the case is, their contents too
(`allocations_run`).  Both are one statement about a view of the allocations that knows their
pointers, `map_allocations_run`.
-/

namespace FusedGemm

namespace Device

variable {β : Type} {f : Allocation → β} {g : β → Pointer} {device device' : Device}
  {ps : List Pointer}

theorem others_release (device : Device) (p : Pointer) (ps : List Pointer) :
    (device.release p).others ps = (device.others ps).filter fun a => a.pointer ∉ [p] := by
  unfold others
  rw [allocations_release]
  unfold others
  rw [List.filter_filter, List.filter_filter]
  exact List.filter_congr fun a _ => Bool.and_comm _ _

/-- Of a view that knows the pointers, as much is left as of the allocations. -/
theorem map_filter_pointer (hf : ∀ a, g (f a) = a.pointer) (as : List Allocation)
    (ps : List Pointer) :
    (as.filter fun a => a.pointer ∉ ps).map f = (as.map f).filter fun b => g b ∉ ps := by
  rw [List.filter_map]
  refine congrArg _ (List.filter_congr fun a _ => ?_)
  show _ = decide (g (f a) ∉ ps)
  rw [hf]

/-- What is allocated last can be released again. -/
theorem others_grant (hd : device.Sound) (n : Nat) :
    ((device.grant n).others ps).filter (fun a => a.pointer ∉ [device.nextPointer]) =
      device.others ps := by
  have hkeep : (device.others ps).filter (fun a => a.pointer ∉ [device.nextPointer]) =
      device.others ps := by
    rw [List.filter_eq_self]
    intro a ha
    have hmem : a.pointer ∈ device.pointers := List.mem_map_of_mem (List.mem_filter.mp ha).1
    refine decide_eq_true fun heq => hd.nextPointer_notMem ?_
    rwa [List.mem_singleton.mp heq] at hmem
  unfold others at hkeep ⊢
  by_cases hmem : device.nextPointer ∈ ps
  · rw [grant, List.filter_cons_of_neg (by simpa using hmem)]
    exact hkeep
  · rw [grant, List.filter_cons_of_pos (by simpa using hmem), List.filter_cons_of_neg (by simp)]
    exact hkeep

end Device

namespace Round

variable {σ β : Type} {f : Allocation → β} {g : β → Pointer} {kernel : Kernel σ} {config : Config}
  {r : Round} {case : Case} {launch : Launch} {workspace : Pointer} {s : σ} {device : Device}

/-! ### Kernels that keep the shape -/

theorem sameShape_launchWith (hk : kernel.KeepsShape) (hd : device.Sound) :
    device.SameShape (launchWith kernel case launch workspace s device).2.2 := by
  have hprepared := hk.prepareOn s launch workspace device hd
  have hran := hprepared.trans
    (hk.run (kernel.prepare s launch workspace).2 _ (hd.of_sameShape hprepared))
  rcases launchWith_device kernel case launch workspace s device with h | ⟨-, h | h⟩
  · rw [h]
    exact hprepared
  · rw [h]
    exact hran
  · rw [h]
    exact hran.trans (Device.sameShape_synchronize _)

/-- Nothing that `f` shows of the allocations away from the case changes with the launch. -/
def Spares (kernel : Kernel σ) (f : Allocation → β) (case : Case) (launch : Launch) : Prop :=
  ∀ workspace s (device : Device), device.Sound →
    ((launchWith kernel case launch workspace s device).2.2.others case.pointers).map f =
      (device.others case.pointers).map f

theorem map_others_attempt (hf : ∀ a, g (f a) = a.pointer) (hk : kernel.KeepsShape)
    (hd : device.Sound) (h : Spares kernel f case launch) :
    (attempt kernel case launch s device).2.2.Sound ∧
      ((attempt kernel case launch s device).2.2.others case.pointers).map f =
        (device.others case.pointers).map f := by
  rcases attempt_device kernel case launch s device with heq | ⟨buffer, scratch, hb, heq⟩
  · rw [heq]
    exact ⟨hd, rfl⟩
  rw [heq]
  have hscratch := hd.buffer_allocate hb
  refine ⟨(hscratch.of_sameShape (sameShape_launchWith hk hscratch)).release _, ?_⟩
  have hspared := h buffer.pointer s scratch hscratch
  rw [Device.others_release, Device.map_filter_pointer hf, hspared,
    ← Device.map_filter_pointer hf]
  rcases Device.buffer_allocate_eq_ok hb with ⟨-, rfl, rfl⟩ | ⟨-, rfl, rfl⟩
  · -- an empty buffer is null, and releasing that does nothing
    rw [← Device.others_release]
    unfold Device.others
    rw [Device.allocations_release, Device.others_eq_self]
    intro p hp
    rw [List.mem_singleton.mp hp]
    exact hd.null_notMem
  · rw [Device.others_grant hd]

/-- **A round leaves what a view shows of the allocations from before**, if the launches do that
away from the case. -/
theorem map_allocations_run (hf : ∀ a, g (f a) = a.pointer) (hk : kernel.KeepsShape)
    (hd : device.Sound)
    (h : ∀ case launch, case.arguments = .ok launch → Spares kernel f case launch) :
    (run kernel config r s device).2.2.Sound ∧
      (run kernel config r s device).2.2.allocations.map f = device.allocations.map f := by
  rcases run_device kernel config r s device with ⟨e, hset⟩ | ⟨case, placed, hset, heq⟩
  · obtain ⟨hsound, hallocations⟩ := allocations_setUp_of_error hd hset
    rw [hallocations]
    exact ⟨hsound, rfl⟩
  have hm := materialized_of_setUp hd hset
  have hplaced : placed.Sound := hm.holds.sound
  have hcase : (runCase kernel case s placed).2.2.Sound ∧
      ((runCase kernel case s placed).2.2.others case.pointers).map f =
        (placed.others case.pointers).map f := by
    cases harg : case.arguments with
    | error e =>
      rw [runCase_of_arguments_error harg]
      exact ⟨hplaced, rfl⟩
    | ok launch =>
      rw [runCase_of_arguments_ok harg]
      exact map_others_attempt hf hk hplaced (h case launch harg)
  rw [heq]
  unfold Case.release
  refine ⟨hcase.1.releaseAll _, ?_⟩
  rw [Device.allocations_releaseAll, hcase.2, hm.others_eq hd]

/-- A kernel that keeps the shape leaves the shapes from before. -/
theorem shapes_run (hk : kernel.KeepsShape) (hd : device.Sound) :
    (run kernel config r s device).2.2.Sound ∧
      (run kernel config r s device).2.2.shapes = device.shapes := by
  refine map_allocations_run (f := Allocation.shape) (g := Prod.fst) (fun _ => rfl) hk hd ?_
  intro case launch _ workspace s device hd
  rw [Device.shapes_others, Device.shapes_others, (sameShape_launchWith hk hd).shapes_eq]

/-! ### Kernels that write nowhere else -/

theorem spares_of_untouched
    (hprepare : ∀ s launch workspace device,
      (kernel.prepareOn s launch workspace device).allocations = device.allocations)
    (hrun : ∀ s device, (kernel.run s device).2.2.allocations = device.allocations) :
    Spares kernel id case launch := by
  intro workspace s device _
  have hran := (hrun (kernel.prepare s launch workspace).2 _).trans
    (hprepare s launch workspace device)
  rcases launchWith_device kernel case launch workspace s device with h | ⟨-, h | h⟩
  · rw [h, Device.others, hprepare]
    rfl
  · rw [h, Device.others, hran]
    rfl
  · rw [h, Device.others_synchronize, Device.others, hran]
    rfl

/-- The emulated kernel writes only to the outputs of the case. -/
theorem spares_emulation (harg : case.arguments = .ok launch) :
    Spares emulation id case launch := by
  intro workspace kernel device _
  have hpointers : ∀ channel, ∀ arg ∈ launch.outputs.get? channel, arg.pointer ∈ case.pointers := by
    intro channel arg h
    rw [Case.outputs_of_arguments harg, Outputs.get?_map] at h
    obtain ⟨staged, hs, rfl⟩ := Option.map_eq_some_iff.mp h
    exact List.mem_map_of_mem (Operands.mem_toList_of_output hs)
  have hran : ∀ taken : EmulatedKernel, taken.launch = some launch →
      (taken.run device).2.2.others case.pointers = device.others case.pointers := by
    intro taken htaken
    rcases taken.run_device device with h | ⟨launch', hlaunch', h⟩
    · rw [h]
    · rw [htaken, Option.some.injEq] at hlaunch'
      rw [h, ← hlaunch', EmulatedKernel.others_execute hpointers]
  rcases launchWith_device emulation case launch workspace kernel device with h | ⟨hs, h | h⟩
  · rw [h]
    rfl
  · rw [h, show (emulation.prepare kernel launch workspace).2 = _ from
      EmulatedKernel.prepare_of_success hs]
    exact congrArg (List.map id) (hran _ rfl)
  · rw [h, Device.others_synchronize, show (emulation.prepare kernel launch workspace).2 = _ from
      EmulatedKernel.prepare_of_success hs]
    exact congrArg (List.map id) (hran _ rfl)

/-- A launch that spares every allocation away from the case leaves them as they were. -/
theorem allocations_run (hk : kernel.KeepsShape) (hd : device.Sound)
    (h : ∀ case launch, case.arguments = .ok launch → Spares kernel id case launch) :
    (run kernel config r s device).2.2.allocations = device.allocations := by
  have hrun : (run kernel config r s device).2.2.allocations.map id = device.allocations.map id :=
    (map_allocations_run (g := Allocation.pointer) (fun _ => rfl) hk hd h).2
  rwa [List.map_id, List.map_id] at hrun

/-! ### No leaks -/

/-- **A round gives back what it acquires**, wherever it stops: as much is live as before.  If the
kernel writes nothing, or is the emulated one, the allocations from before are as they were.  The
same holds where a case cannot be set up, and where one has been and is released. -/
theorem run_gives_back (config : Config) (r : Round) {device : Device} (hd : device.Sound) :
    (∀ {σ : Type} (kernel : Kernel σ) (s : σ), kernel.KeepsShape →
      device.SameCounts (run kernel config r s device).2.2 ∧
      ((∀ s launch workspace device,
        (kernel.prepareOn s launch workspace device).allocations = device.allocations) →
      (∀ s device, (kernel.run s device).2.2.allocations = device.allocations) →
        (run kernel config r s device).2.2.allocations = device.allocations)) ∧
    (∀ kernel : EmulatedKernel,
      device.SameCounts (run emulation config r kernel device).2.2 ∧
        (run emulation config r kernel device).2.2.allocations = device.allocations) ∧
    (∀ e after, Case.setUp config r.problem r.alpha r.beta device = (.error e, after) →
      device.SameCounts after ∧ after.allocations = device.allocations) ∧
    ∀ case placed, Case.setUp config r.problem r.alpha r.beta device = (.ok case, placed) →
      device.SameCounts (case.release placed) ∧
        (case.release placed).allocations = device.allocations := by
  have hcounts : ∀ {σ : Type} (kernel : Kernel σ) (s : σ), kernel.KeepsShape →
      device.SameCounts (run kernel config r s device).2.2 := by
    intro σ kernel s hk
    exact hd.sameCounts (shapes_run hk hd).1 (shapes_run hk hd).2
  have hrestored : ∀ after : Device, after.Sound → after.allocations = device.allocations →
      device.SameCounts after ∧ after.allocations = device.allocations := by
    intro after hsound heq
    exact ⟨hd.sameCounts hsound (by rw [Device.shapes, heq, Device.shapes]), heq⟩
  refine ⟨fun kernel s hk => ⟨hcounts kernel s hk, fun hprepare hrun => ?_⟩,
    fun kernel => ⟨hcounts emulation kernel emulation_keepsShape, ?_⟩, fun e after hset => ?_,
    fun case placed hset => ?_⟩
  · exact allocations_run hk hd fun _ _ _ => spares_of_untouched hprepare hrun
  · exact allocations_run emulation_keepsShape hd fun _ _ harg => spares_emulation harg
  · obtain ⟨hsound, heq⟩ := allocations_setUp_of_error hd hset
    exact hrestored after hsound heq
  · have hm := materialized_of_setUp hd hset
    refine hrestored _ (hm.holds.sound.releaseAll _) ?_
    rw [Case.release, Device.allocations_releaseAll, hm.others_eq hd]

/-- A device of 48 bytes with one allocation, whose next synchronization fails. -/
def crowded : Device where
  capacity := some 48
  allocations := [⟨⟨3⟩, [1, 2, 3, 4]⟩]
  allocatedBytes := 4
  totalAllocations := 3
  pending := some (.fault "lost")

theorem sound_crowded : crowded.Sound := ⟨rfl, by decide, by decide⟩

theorem run_gives_back_crowded :
    crowded.Sound ∧ (Kernel.idle 16).KeepsShape ∧
      crowded.SameCounts (run (Kernel.idle 16) {} ⟨.single 2 2 1, 1, 0⟩ () crowded).2.2 ∧
      (run (Kernel.idle 16) {} ⟨.single 2 2 1, 1, 0⟩ () crowded).2.2.allocations =
        [⟨⟨3⟩, [1, 2, 3, 4]⟩] ∧
      crowded.SameCounts
        (run emulation {} ⟨.single 2 2 1, 1, 0⟩ { workspace := 16 } crowded).2.2 := by
  have hrun := run_gives_back {} ⟨.single 2 2 1, 1, 0⟩ sound_crowded
  have hidle := Kernel.idle_keepsShape 16
  exact ⟨sound_crowded, hidle, (hrun.1 _ () hidle).1,
    (hrun.1 _ () hidle).2 (fun _ _ _ _ => rfl) fun _ _ => rfl,
    (hrun.2.1 { workspace := 16 }).1⟩

end Round

end FusedGemm
