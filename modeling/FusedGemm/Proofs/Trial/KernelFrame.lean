import FusedGemm.Proofs.Trial.EmptyScalars
import FusedGemm.Proofs.Trial.Emulating

/-!
# What the emulated kernel leaves alone

The kernel works on a device of its own or on the one that it is run on (`EmulatedKernel.memory`),
in whatever state that is.  A run with the arguments of a case neither allocates nor frees there,
and it writes nothing away from the outputs of its launch.  If an operand cannot be read it writes
nothing at all, as all reads come first; and what it computes from what it has read is in the
storage of that (`EmulatedKernel.Frames`, `Case.exists_frames`).
-/

namespace FusedGemm

/-- The pointers that a launch writes to. -/
def Launch.targets (launch : Launch) : List Pointer :=
  launch.outputs.toList.map fun output => output.2.pointer

theorem Launch.pointer_mem_targets {launch : Launch} {channel : Channel} {arg : TensorArgument}
    (h : arg ∈ launch.outputs.get? channel) : arg.pointer ∈ launch.targets := by
  refine List.mem_map.mpr ⟨(channel, arg), List.mem_filterMap.mpr ⟨channel, ?_, ?_⟩, rfl⟩
  · cases channel <;> decide
  · rw [Option.mem_def.mp h]
    rfl

namespace EmulatedKernel

variable {kernel : EmulatedKernel} {launch : Launch} {device : Device}

/-- The device that the kernel works on. -/
def memory (kernel : EmulatedKernel) (device : Device) : Device := kernel.ownDevice.getD device

/-- The device that the kernel has worked on, after a run. -/
def memoryAfter (kernel : EmulatedKernel) (device : Device) : Device :=
  (kernel.run device).2.1.memory (kernel.run device).2.2

/-! ### Runs -/

/-- A launch that fails by itself touches nothing. -/
theorem run_of_failsRun (hlaunch : kernel.launch = some launch)
    (hfails : kernel.has .failsRun = true) (device : Device) :
    kernel.run device = (.internalError, kernel, device) := by
  unfold run
  rw [hlaunch]
  exact if_pos hfails

/-- Any other launch is evaluated where the kernel works. -/
theorem run_of_not_failsRun (hlaunch : kernel.launch = some launch)
    (hfails : kernel.has .failsRun = false) (device : Device) :
    (kernel.run device).1 = statusOf (kernel.execute launch (kernel.memory device)).1 ∧
      kernel.memoryAfter device = (kernel.execute launch (kernel.memory device)).2 ∧
      (kernel.ownDevice.isSome = true → (kernel.run device).2.2 = device) := by
  unfold memoryAfter memory run
  rw [hlaunch]
  dsimp only
  rw [hfails, if_neg Bool.false_ne_true]
  cases hown : kernel.ownDevice with
  | some own => exact ⟨rfl, rfl, fun _ => rfl⟩
  | none => exact ⟨rfl, by rw [hown]; rfl, fun h => by cases h⟩

/-- What a run leaves alone, and what it has read before it writes. -/
structure Frames (kernel : EmulatedKernel) (launch : Launch) (device : Device) : Prop where
  status : (kernel.run device).1 = .success ∨ (kernel.run device).1 = .internalError
  /-- Nothing is allocated and nothing freed. -/
  sameShape : (kernel.memory device).Sound →
    (kernel.memory device).SameShape (kernel.memoryAfter device)
  pending_eq : (kernel.memoryAfter device).pending = (kernel.memory device).pending
  /-- Away from the outputs nothing is written. -/
  others_eq : (kernel.memoryAfter device).others launch.targets =
    (kernel.memory device).others launch.targets
  device_eq : kernel.ownDevice.isSome = true → (kernel.run device).2.2 = device
  /-- Without all operands nothing is written at all. -/
  unread : (∃ arg ∈ launch.reads (kernel.has .keepsMaxima), ¬ (kernel.memory device).CanRead arg) →
    (kernel.run device).1 = .internalError ∧ kernel.memoryAfter device = kernel.memory device
  /-- With all of them the outputs are computed from storage and written in order. -/
  read : kernel.has .failsRun = false →
    (∀ arg ∈ launch.reads (kernel.has .keepsMaxima), (kernel.memory device).CanRead arg) →
    ∃ loaded, (kernel.memory device).loadProduct (kernel.has .keepsMaxima) launch = .ok loaded ∧
      loaded.product.Covered loaded.outputs ∧
      (kernel.run device).1 = statusOf (Device.storeAll
        (writes launch.outputs (kernel.outputs loaded)) (kernel.memory device)).1 ∧
      kernel.memoryAfter device = (Device.storeAll
        (writes launch.outputs (kernel.outputs loaded)) (kernel.memory device)).2

/-- What cannot be read is not evaluated. -/
theorem execute_of_unread
    (h : ∃ arg ∈ launch.reads (kernel.has .keepsMaxima), ¬ device.CanRead arg) :
    ∃ e, kernel.execute launch device = (some e, device) := by
  unfold execute
  cases hload : device.loadProduct (kernel.has .keepsMaxima) launch with
  | error e => exact ⟨e, rfl⟩
  | ok loaded =>
    obtain ⟨arg, hmem, hnot⟩ := h
    exact absurd (Device.exists_loadProduct_iff.mp ⟨loaded, hload⟩ arg hmem) hnot

theorem statusOf_eq (e : Option DeviceError) :
    statusOf e = .success ∨ statusOf e = .internalError := by
  cases e with
  | none => exact Or.inl rfl
  | some e => exact Or.inr rfl

/-- **A run frames what it does**, wherever the product that it loads is covered. -/
theorem frames (hlaunch : kernel.launch = some launch)
    (hcovered : ∀ loaded, (kernel.memory device).loadProduct (kernel.has .keepsMaxima) launch =
      .ok loaded → loaded.product.Covered loaded.outputs) : kernel.Frames launch device := by
  cases hfails : kernel.has .failsRun with
  | true =>
    have hrun := run_of_failsRun hlaunch hfails device
    have hmemory : kernel.memoryAfter device = kernel.memory device := by
      unfold memoryAfter
      rw [hrun]
    exact {
      status := Or.inr (congrArg Prod.fst hrun)
      sameShape := fun _ => hmemory ▸ .refl _
      pending_eq := congrArg Device.pending hmemory
      others_eq := congrArg (Device.others · launch.targets) hmemory
      device_eq := fun _ => congrArg (·.2.2) hrun
      unread := fun _ => ⟨congrArg Prod.fst hrun, hmemory⟩
      read := fun h => by rw [hfails] at h; cases h }
  | false =>
    obtain ⟨hstatus, hmemory, hdevice⟩ := run_of_not_failsRun hlaunch hfails device
    exact {
      status := hstatus ▸ statusOf_eq _
      sameShape := fun hsound => hmemory ▸ sameShape_execute hsound
      pending_eq := (congrArg Device.pending hmemory).trans (kernel.pending_execute launch _)
      others_eq := (congrArg (Device.others · launch.targets) hmemory).trans
        (others_execute fun channel arg harg => Launch.pointer_mem_targets harg)
      device_eq := hdevice
      unread := fun h => by
        obtain ⟨e, hexecute⟩ := execute_of_unread h
        rw [hexecute] at hstatus hmemory
        exact ⟨hstatus, hmemory⟩
      read := fun _ h => by
        obtain ⟨loaded, hload⟩ := Device.exists_loadProduct_iff.mpr h
        have hexecute : kernel.execute launch (kernel.memory device) =
            Device.storeAll (writes launch.outputs (kernel.outputs loaded))
              (kernel.memory device) := by
          unfold execute
          rw [hload]
        rw [hexecute] at hstatus hmemory
        exact ⟨loaded, hload, hcovered loaded hload, hstatus, hmemory⟩ }

end EmulatedKernel

/-! ### Cases -/

namespace Case

variable {config : Config} {p : Problem} {x y : Float} {before placed : Device} {case : Case}

/-- **A kernel that is run on a case writes only the outputs of the case.**  The case has arguments,
and whatever faults the kernel has and whatever is on the device that it works on, a run with them
frames what it does. -/
theorem exists_frames (hd : before.Sound) (hm : 0 < p.m)
    (hset : setUp config p x y before = (.ok case, placed)) :
    ∃ launch, case.arguments = .ok launch ∧ ∀ (kernel : EmulatedKernel) (device : Device),
      kernel.launch = some launch → kernel.Frames launch device := by
  have h := materialized_of_setUp hd hset
  obtain ⟨launch, harg⟩ := h.exists_arguments fun hrows => hm.ne' hrows.2
  refine ⟨launch, harg, fun kernel device hlaunch => kernel.frames hlaunch fun loaded hload => ?_⟩
  exact (h.shaped_load harg hload).covered

/-- A backward pass that tracks the largest absolute value of a narrow product. -/
def trackedGradient : Config where
  typeD := .f8e5m2
  fusion := { biasGradient := true, auxIn := true, absMax := true }

/-- A kernel that keeps its maxima, on a device without any of the operands. -/
def elsewhere (launch : Launch) : EmulatedKernel where
  faults := [.keepsMaxima, .offsetD 0 1]
  ownDevice := some {}
  launch := some launch

/-- One row of two gradients. -/
def gradientRow : Problem := .single 1 2 1

theorem exists_frames_elsewhere : ({} : Device).Sound ∧ 0 < gradientRow.m ∧
    ∃ case placed launch, setUp trackedGradient gradientRow 1 0 {} = (.ok case, placed) ∧
      case.arguments = .ok launch ∧ (elsewhere launch).launch = some launch ∧
      ((elsewhere launch).run placed).1 = .internalError ∧
      (elsewhere launch).memoryAfter placed = {} ∧
      ((elsewhere launch).run placed).2.2 = placed := by
  have hd : ({} : Device).Sound := Device.sound_empty none
  have hm : 0 < gradientRow.m := by decide
  obtain ⟨case, placed, hset, hpointer⟩ : ∃ case placed,
      setUp trackedGradient gradientRow 1 0 {} = (.ok case, placed) ∧
        case.operands.a.pointer = ⟨1⟩ := ⟨_, _, rfl, rfl⟩
  obtain ⟨launch, harg, hframes⟩ := exists_frames hd hm hset
  have hframe := hframes (elsewhere launch) placed rfl
  have hunread : ¬ ({} : Device).CanRead launch.a := by
    obtain ⟨-, -, -, -, -, -, rfl⟩ := arguments_eq_ok harg
    intro hread
    have hcount : 0 < case.operands.a.host.layout.extent.count := by
      have hextent := (materialized_of_setUp hd hset).left.1.extent_eq
      rw [show case.operands.a.host.layout.extent = _ from hextent]
      decide
    have hne : case.operands.a.pointer ≠ .null := by
      rw [hpointer]
      decide
    obtain ⟨bytes, hbytes, -⟩ := hread hcount hne
    cases hbytes
  have hmem : launch.a ∈ launch.reads ((elsewhere launch).has .keepsMaxima) := by
    simp [Launch.reads]
  obtain ⟨hstatus, hmemory⟩ := hframe.unread ⟨launch.a, hmem, hunread⟩
  exact ⟨hd, hm, case, placed, launch, hset, harg, rfl, hstatus, hmemory, hframe.device_eq rfl⟩

end Case

end FusedGemm
