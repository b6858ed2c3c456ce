import FusedGemm.Gemm.Emulation
import FusedGemm.Proofs.Device.Accounting

/-!
# What kernels do to device memory

A kernel *keeps the shape* of device memory if it neither allocates nor frees, whatever it writes.
The emulated kernel does (`emulation_keepsShape`), and it writes nothing away from the outputs of
its launch (`others_execute`).
-/

namespace FusedGemm

/-- The kernel neither allocates nor frees. -/
structure Kernel.KeepsShape {σ : Type} (kernel : Kernel σ) : Prop where
  prepareOn : ∀ s launch workspace (device : Device), device.Sound →
    device.SameShape (kernel.prepareOn s launch workspace device)
  run : ∀ s (device : Device), device.Sound → device.SameShape (kernel.run s device).2.2

/-- The kernel that succeeds at every stage and does nothing. -/
def Kernel.idle (scratch : Nat) : Kernel Unit where
  supports _ _ := .success
  scratchSize _ _ := scratch
  prepare _ _ _ := (.success, ())
  run _ device := (.success, (), device)

theorem Kernel.idle_keepsShape (scratch : Nat) : (idle scratch).KeepsShape where
  prepareOn _ _ _ device _ := .refl device
  run _ device _ := .refl device

/-- The kernel that succeeds at every stage and fills all of device memory with zeros. -/
def Kernel.wiping : Kernel Unit where
  supports _ _ := .success
  scratchSize _ _ := 0
  prepare _ _ _ := (.success, ())
  run _ device := (.success, (), { device with
    allocations := device.allocations.map fun a => ⟨a.pointer, List.replicate a.bytes.length 0⟩ })

theorem Kernel.wiping_keepsShape : wiping.KeepsShape where
  prepareOn _ _ _ device _ := .refl device
  run _ device _ := by
    refine ⟨?_, rfl, rfl, rfl⟩
    simp only [wiping, Device.shapes, List.map_map]
    refine List.map_congr_left fun a _ => ?_
    simp [Allocation.shape]

/-! ### Storing outputs -/

namespace Device

variable {device device' : Device} {arg : TensorArgument} {t : Tensor} {ps : List Pointer}

theorem store_eq_ok (h : device.store arg t = .ok device') :
    device' = device ∨ device.write arg.pointer t.bytes = .ok device' := by
  unfold store at h
  split_ifs at h
  · exact Or.inr h
  · cases h
    exact Or.inl rfl

theorem Sound.sameShape_storeAll (hd : device.Sound) (ws : List (TensorArgument × Tensor)) :
    device.SameShape (storeAll ws device).2 := by
  induction ws generalizing device with
  | nil => exact .refl device
  | cons w ws ih =>
    obtain ⟨arg, t⟩ := w
    unfold storeAll
    cases hs : device.store arg t with
    | error e => exact .refl device
    | ok device' =>
      rcases store_eq_ok hs with rfl | hw
      · exact ih hd
      · have hshape := hd.sameShape_write hw
        exact hshape.trans (ih (hd.of_sameShape hshape))

/-- Storing tensors changes nothing away from where they go. -/
theorem others_storeAll {ws : List (TensorArgument × Tensor)} (h : ∀ w ∈ ws, w.1.pointer ∈ ps) :
    (storeAll ws device).2.others ps = device.others ps := by
  induction ws generalizing device with
  | nil => rfl
  | cons w ws ih =>
    obtain ⟨arg, t⟩ := w
    have hrest := fun w hw => h w (List.mem_cons_of_mem _ hw)
    unfold storeAll
    cases hs : device.store arg t with
    | error e => rfl
    | ok device' =>
      rcases store_eq_ok hs with rfl | hw
      · exact ih hrest
      · exact (ih hrest).trans (others_write hw (h _ List.mem_cons_self))

theorem pending_storeAll (ws : List (TensorArgument × Tensor)) (device : Device) :
    (storeAll ws device).2.pending = device.pending := by
  induction ws generalizing device with
  | nil => rfl
  | cons w ws ih =>
    obtain ⟨arg, t⟩ := w
    unfold storeAll
    cases hs : device.store arg t with
    | error e => rfl
    | ok device' =>
      refine (ih device').trans ?_
      rcases store_eq_ok hs with rfl | hw
      · rfl
      · exact pending_write hw

/-- **Tensors that have room at pointers of their own are all stored.** -/
theorem storeAll_eq_ok {ws : List (TensorArgument × Tensor)} (hd : device.Sound)
    (hroom : ∀ w ∈ ws, w.1.pointer ≠ .null → ∃ old, device.contents? w.1.pointer = some old ∧
      old.length = w.2.bytes.length)
    (hdistinct : ws.Pairwise fun w w' => w.1.pointer ≠ .null → w.1.pointer ≠ w'.1.pointer) :
    (storeAll ws device).1 = none ∧ ∀ w ∈ ws, w.1.pointer ≠ .null → 0 < w.2.count →
      (storeAll ws device).2.contents? w.1.pointer = some w.2.bytes := by
  induction ws generalizing device with
  | nil => exact ⟨rfl, by simp⟩
  | cons w ws ih =>
    obtain ⟨arg, t⟩ := w
    obtain ⟨hfirst, hrest⟩ := List.pairwise_cons.mp hdistinct
    have hroom' := fun w hw => hroom w (List.mem_cons_of_mem _ hw)
    unfold storeAll
    by_cases hwrite : 0 < t.count ∧ arg.pointer ≠ .null
    · obtain ⟨old, hold, hlength⟩ := hroom _ List.mem_cons_self hwrite.2
      obtain ⟨device', hw⟩ := exists_write_eq_ok hold hlength
      have hstore : device.store arg t = .ok device' := by
        simp [store, hwrite.1, Bool.eq_false_iff.mpr (Pointer.isNull_iff.not.mpr hwrite.2), hw]
      rw [hstore]
      obtain ⟨hnone, hcontents⟩ := ih (hd.of_sameShape (hd.sameShape_write hw)) (fun w hw' hne => by
        rw [contents?_write_of_ne hw (hfirst w hw' hwrite.2).symm]
        exact hroom' w hw' hne) hrest
      refine ⟨hnone, fun w hw' hne hcount => ?_⟩
      rcases List.mem_cons.mp hw' with rfl | hmem
      · have hothers : (storeAll ws device').2.others (ws.map fun w => w.1.pointer) =
            device'.others (ws.map fun w => w.1.pointer) :=
          others_storeAll fun w hw => List.mem_map_of_mem hw
        have hfree : arg.pointer ∉ ws.map fun w => w.1.pointer := by
          intro hmem
          obtain ⟨w, hw', heq⟩ := List.mem_map.mp hmem
          exact hfirst w hw' hwrite.2 heq.symm
        exact (contents?_eq_of_others hothers hfree).trans (contents?_write_self hw)
      · exact hcontents w hmem hne hcount
    · have hstore : device.store arg t = .ok device := by
        unfold store
        refine if_neg fun h => hwrite ?_
        rw [Bool.and_eq_true, decide_eq_true_iff, Bool.not_eq_true'] at h
        exact ⟨h.1, fun hnull => by rw [Pointer.isNull_iff.mpr hnull] at h; cases h.2⟩
      rw [hstore]
      obtain ⟨hnone, hcontents⟩ := ih hd hroom' hrest
      refine ⟨hnone, fun w hw' hne hcount => ?_⟩
      rcases List.mem_cons.mp hw' with rfl | hmem
      · exact absurd ⟨hcount, hne⟩ hwrite
      · exact hcontents w hmem hne hcount

end Device

/-! ### The emulated kernel -/

namespace EmulatedKernel

variable {kernel : EmulatedKernel} {launch : Launch} {device : Device} {ps : List Pointer}

theorem mem_writes_iff {args : Outputs TensorArgument} {outputs : Outputs Tensor}
    {w : TensorArgument × Tensor} : w ∈ writes args outputs ↔
      ∃ channel, args.get? channel = some w.1 ∧ outputs.get? channel = some w.2 := by
  unfold writes
  rw [List.mem_filterMap]
  constructor
  · rintro ⟨channel, -, hw⟩
    split at hw
    · next arg t harg ht =>
      cases hw
      exact ⟨channel, harg, ht⟩
    · cases hw
  · rintro ⟨channel, harg, ht⟩
    refine ⟨channel, by cases channel <;> decide, ?_⟩
    rw [harg, ht]

theorem sameShape_execute (hd : device.Sound) :
    device.SameShape (kernel.execute launch device).2 := by
  unfold execute
  cases device.loadProduct (kernel.has .keepsMaxima) launch with
  | error e => exact .refl device
  | ok loaded => exact hd.sameShape_storeAll _

theorem others_execute (h : ∀ channel, ∀ arg ∈ launch.outputs.get? channel, arg.pointer ∈ ps) :
    (kernel.execute launch device).2.others ps = device.others ps := by
  unfold execute
  cases device.loadProduct (kernel.has .keepsMaxima) launch with
  | error e => rfl
  | ok loaded =>
    refine Device.others_storeAll fun w hw => ?_
    obtain ⟨channel, harg, -⟩ := mem_writes_iff.mp hw
    exact h channel w.1 harg

theorem prepare_of_success {workspace : Pointer}
    (h : (kernel.prepare launch workspace).1.isSuccess = true) :
    (kernel.prepare launch workspace).2 = { kernel with launch := some launch } := by
  unfold prepare at h ⊢
  split_ifs at h ⊢
  · cases h
  · rfl

/-- What a run does to the device: nothing, or what the evaluation of its launch does. -/
theorem run_device (kernel : EmulatedKernel) (device : Device) :
    (kernel.run device).2.2 = device ∨ ∃ launch, kernel.launch = some launch ∧
      (kernel.run device).2.2 = (kernel.execute launch device).2 := by
  unfold run
  cases kernel.launch with
  | none => exact Or.inl rfl
  | some launch =>
    dsimp only
    split_ifs
    · exact Or.inl rfl
    · cases kernel.ownDevice with
      | some own => exact Or.inl rfl
      | none => exact Or.inr ⟨launch, rfl, rfl⟩

end EmulatedKernel

/-- The emulated kernel neither allocates nor frees. -/
theorem emulation_keepsShape : emulation.KeepsShape where
  prepareOn _ _ _ device _ := .refl device
  run kernel device hd := by
    show device.SameShape (kernel.run device).2.2
    rcases kernel.run_device device with h | ⟨launch, -, h⟩
    · rw [h]
      exact .refl device
    · rw [h]
      exact EmulatedKernel.sameShape_execute hd

end FusedGemm
