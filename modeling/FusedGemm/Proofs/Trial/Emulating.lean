import FusedGemm.Proofs.Gemm.KernelMemory
import FusedGemm.Proofs.Trial.Reloading

/-!
# The emulated kernel on a case

An emulated kernel whose only faults are wrong elements of `D` supports the arguments of every case
(`OnlyOffsets.supports_eq`, `Materialized.fits`).  From the operands of the case on the device it
loads the product of the reference, and it leaves the outputs of the reference there, `D` with its
faults (`Materialized.execute_offsets`); a kernel that keeps running maxima has started them from the
host copies (`Materialized.execute_start`).  Without faults these are the outputs of the reference
(`Materialized.execute`).
-/

namespace FusedGemm

/-! ### Kernels with no other faults than in `D` -/

/-- The kernel has no faults and works on the device that it is run on. -/
structure EmulatedKernel.Faultless (kernel : EmulatedKernel) : Prop where
  faults_eq : kernel.faults = []
  ownDevice_eq : kernel.ownDevice = none

/-- The only faults of the kernel are numbers added to elements of `D`, and it works on the device
that it is run on. -/
structure EmulatedKernel.OnlyOffsets (kernel : EmulatedKernel) : Prop where
  exists_offset : ∀ fault ∈ kernel.faults, ∃ index delta, fault = .offsetD index delta
  ownDevice_eq : kernel.ownDevice = none

namespace KernelFault

variable (t : Tensor) (fault : KernelFault)

theorem alike_perturb : t.Alike (perturb t fault) := by
  cases fault with
  | offsetD index delta => exact Tensor.alike_put t _ _
  | _ => exact .refl t

theorem perturb_renamed (name : String) :
    perturb (t.renamed name) fault = (perturb t fault).renamed name := by
  cases fault <;> rfl

end KernelFault

namespace EmulatedKernel

variable {kernel : EmulatedKernel} {launch : Launch}

/-- What the kernel writes to a channel in the place of a tensor: `D` has its faults. -/
def written (kernel : EmulatedKernel) : Channel → Tensor → Tensor
  | .d, t => kernel.faults.foldl KernelFault.perturb t
  | _, t => t

theorem alike_written (kernel : EmulatedKernel) (channel : Channel) (t : Tensor) :
    t.Alike (kernel.written channel t) := by
  have hfold : ∀ (faults : List KernelFault) (t : Tensor),
      t.Alike (faults.foldl KernelFault.perturb t) := by
    intro faults
    induction faults with
    | nil => exact Tensor.Alike.refl
    | cons fault faults ih => exact fun t => (fault.alike_perturb t).trans (ih _)
  cases channel with
  | d => exact hfold kernel.faults t
  | _ => exact .refl t

theorem written_renamed (kernel : EmulatedKernel) (channel : Channel) (t : Tensor)
    (name : String) :
    kernel.written channel (t.renamed name) = (kernel.written channel t).renamed name := by
  have hfold : ∀ (faults : List KernelFault) (t : Tensor),
      faults.foldl KernelFault.perturb (t.renamed name) =
        (faults.foldl KernelFault.perturb t).renamed name := by
    intro faults
    induction faults with
    | nil => exact fun t => rfl
    | cons fault faults ih =>
      intro t
      rw [List.foldl_cons, fault.perturb_renamed, ih, List.foldl_cons]
  cases channel with
  | d => exact hfold kernel.faults t
  | _ => rfl

theorem get?_outputs (kernel : EmulatedKernel) (loaded : LoadedProduct) (channel : Channel) :
    (kernel.outputs loaded).get? channel =
      ((loaded.product.apply loaded.outputs).get? channel).map (kernel.written channel) := by
  cases channel with
  | d => rfl
  | _ => exact Option.map_id'.symm

theorem written_of_ne (kernel : EmulatedKernel) {channel : Channel} (h : channel ≠ .d) (t : Tensor) :
    kernel.written channel t = t := by
  cases channel with
  | d => exact absurd rfl h
  | _ => rfl

theorem Faultless.written_eq (h : kernel.Faultless) (channel : Channel) (t : Tensor) :
    kernel.written channel t = t := by
  by_cases hd : channel = .d
  · rw [hd, written, h.faults_eq]
    rfl
  · exact kernel.written_of_ne hd t

theorem Faultless.onlyOffsets (h : kernel.Faultless) : kernel.OnlyOffsets where
  exists_offset := by simp [h.faults_eq]
  ownDevice_eq := h.ownDevice_eq

/-- A launch that has been taken is evaluated on the device of the run, unless it fails. -/
theorem run_of_launch (hown : kernel.ownDevice = none) (launch : Launch) (device : Device) :
    run { kernel with launch := some launch } device =
      if kernel.has .failsRun then (.internalError, { kernel with launch := some launch }, device)
      else (statusOf (kernel.execute launch device).1, { kernel with launch := some launch },
        (kernel.execute launch device).2) := by
  unfold run
  dsimp only
  rw [hown]
  rfl

namespace OnlyOffsets

variable (h : kernel.OnlyOffsets)
include h

theorem has_eq {fault : KernelFault} (hne : ∀ index delta, fault ≠ .offsetD index delta) :
    kernel.has fault = false := by
  rw [has, List.contains_eq_mem, decide_eq_false_iff_not]
  intro hmem
  obtain ⟨index, delta, rfl⟩ := h.exists_offset fault hmem
  exact hne index delta rfl

theorem supports_eq (hfits : fits launch = true) : kernel.supports launch = .success := by
  unfold supports
  rw [h.has_eq (by simp), hfits]
  rfl

/-- The launch taken last is evaluated. -/
theorem run_eq (launch : Launch) (device : Device) :
    run { kernel with launch := some launch } device =
      (statusOf (kernel.execute launch device).1, { kernel with launch := some launch },
        (kernel.execute launch device).2) := by
  have hruns : kernel.has .failsRun = false := h.has_eq (by simp)
  rw [run_of_launch h.ownDevice_eq, hruns, if_neg Bool.false_ne_true]

end OnlyOffsets

/-- A launch is taken where there is a scratch buffer of the size that was asked for. -/
theorem prepare_eq {workspace : Pointer} (h : 0 < kernel.workspace → workspace ≠ .null) :
    kernel.prepare launch workspace = (.success, { kernel with launch := some launch }) := by
  unfold prepare
  refine if_neg fun hmissing => ?_
  rw [Bool.and_eq_true, decide_eq_true_iff, Pointer.isNull_iff] at hmissing
  exact h hmissing.1 hmissing.2

theorem pending_execute (kernel : EmulatedKernel) (launch : Launch) (device : Device) :
    (kernel.execute launch device).2.pending = device.pending := by
  unfold execute
  cases device.loadProduct (kernel.has .keepsMaxima) launch with
  | error e => rfl
  | ok loaded => exact Device.pending_storeAll _ _

end EmulatedKernel

/-! ### The operands on the device -/

section Product
variable {config : Config} {p : Problem} {x y : Float} {before placed device : Device} {case : Case}
  {launch : Launch} {kernel : EmulatedKernel}

theorem Materialized.resident (h : Materialized config p x y before case placed) :
    case.Resident placed :=
  fun staged hmem => ⟨h.holds.fits staged hmem, h.holds.contents? hmem⟩

theorem Case.Resident.buffer_allocate (h : case.Resident placed) (hd : placed.Sound) {n : Nat}
    {buffer : Buffer} (ha : Buffer.allocate n placed = .ok (buffer, device)) :
    case.Resident device := fun staged hmem =>
  ⟨(h staged hmem).1, fun hne => hd.contents?_buffer_allocate ha ((h staged hmem).2 hne)⟩

/-- The arguments of a case have the extents of its problem. -/
theorem Materialized.fits (h : Materialized config p x y before case placed)
    (harg : case.arguments = .ok launch) : EmulatedKernel.fits launch = true := by
  obtain ⟨alpha, beta, scale, -, -, -, rfl⟩ := Case.arguments_eq_ok harg
  have hproblem : case.problem = p := by rw [h.case_eq]
  have ha : case.operands.a.host.layout.extent = p.leftExtent := h.left.1.extent_eq
  have hb : case.operands.b.host.layout.extent = p.rightExtent := h.right.1.extent_eq
  have hd : case.operands.outputs.d.host.layout.extent = p.outputExtent := h.product.extent_eq
  simp [EmulatedKernel.fits, Staged.argument, Outputs.map, hproblem, ha, hb, hd]

/-! ### The outputs on the device -/

/-- Outputs that are not empty are written to pointers of their own. -/
theorem Materialized.pairwise_writes (h : Materialized config p x y before case placed)
    (outputs : Outputs Tensor) :
    (EmulatedKernel.writes (case.operands.outputs.map Staged.argument) outputs).Pairwise
      fun w w' => w.1.pointer ≠ .null → w.1.pointer ≠ w'.1.pointer := by
  have hdistinct := h.holds.pairwise_pointers.sublist case.operands.outputs_sublist
  rw [List.pairwise_filterMap] at hdistinct
  rw [EmulatedKernel.writes, List.pairwise_filterMap]
  refine hdistinct.imp fun {channel channel'} hpair w hw w' hw' => ?_
  rw [Outputs.get?_map] at hw hw'
  split at hw
  case h_2 => cases hw
  case h_1 arg t harg ht =>
    split at hw'
    case h_2 => cases hw'
    case h_1 arg' t' harg' ht' =>
      cases hw
      cases hw'
      obtain ⟨staged, hs, rfl⟩ := Option.map_eq_some_iff.mp harg
      obtain ⟨staged', hs', rfl⟩ := Option.map_eq_some_iff.mp harg'
      exact hpair staged hs staged' hs'

/-- Every output starts alike the host copy, whether or not running maxima are kept. -/
theorem Materialized.alike_start (h : Materialized config p x y before case placed) (stale : Bool)
    {channel : Channel} {staged : Staged} (hs : case.operands.outputs.get? channel = some staged) :
    ∃ t, (case.start stale).get? channel = some t ∧ staged.host.Alike t := by
  cases stale with
  | false => exact h.alike_reference hs
  | true =>
    by_cases hmax : channel = .absMaxD ∨ channel = .absMaxAux
    · refine ⟨staged.host, ?_, .refl staged.host⟩
      have houtput : case.outputs.get? channel = some staged.host := by
        rw [Case.outputs, Outputs.get?_map, hs]
        rfl
      rcases hmax with rfl | rfl <;> exact houtput
    · rw [not_or] at hmax
      rw [case.get?_start_of_ne true hmax.1 hmax.2]
      exact h.alike_reference hs

/-- What is computed from the loaded product is what the reference computes, up to names. -/
theorem Materialized.exists_computed (h : Materialized config p x y before case placed)
    {loaded : LoadedProduct} {stale : Bool}
    (hagrees : loaded.product.Agrees case.fusedProduct p.outputExtent)
    (hrestarts : FusedProduct.Restarts loaded.outputs (case.start stale)) {channel : Channel}
    {staged : Staged} (hs : case.operands.outputs.get? channel = some staged) :
    ∃ t name, (loaded.product.apply loaded.outputs).get? channel = some t ∧
      (case.fusedProduct.apply (case.start stale)).get? channel = some (t.renamed name) ∧
      staged.host.Alike t := by
  have hextent : loaded.outputs.d.extent = p.outputExtent := by
    have hproduct : case.operands.outputs.get? .d = some case.operands.outputs.d := rfl
    obtain ⟨t, ht, halike⟩ := h.alike_start stale hproduct
    have hd : (case.start stale).d = t := Option.some.inj ht
    have hlayout : loaded.outputs.d.layout = case.operands.outputs.d.host.layout :=
      hrestarts.alike.layout_eq.symm.trans (hd ▸ halike.layout_eq)
    exact (congrArg Layout.extent hlayout).trans h.product.extent_eq
  obtain ⟨t, ht, halike⟩ := h.alike_start stale hs
  have happly := case.fusedProduct.alike_apply (case.start stale) channel
  rw [ht] at happly
  obtain ⟨expected, hexpected, halike'⟩ := exists_of_rel_some happly
  have hrenames := FusedProduct.apply_renames (hextent ▸ hagrees) hrestarts channel
  rw [hexpected] at hrenames
  obtain ⟨computed, hcomputed, name, rfl⟩ := exists_of_rel_of_some hrenames
  have hstart := halike.trans halike'
  exact ⟨computed, name, hcomputed, hexpected, hstart.type_eq, hstart.layout_eq, hstart.size_eq⟩

/-- **A kernel leaves what the reference computes**, `D` with its faults and running maxima from
where it has started them. -/
theorem Materialized.execute_start (h : Materialized config p x y before case placed)
    (hr : case.Resident device) (hd : device.Sound) (harg : case.arguments = .ok launch)
    (kernel : EmulatedKernel) :
    (kernel.execute launch device).1 = none ∧
      ∀ channel staged, case.operands.outputs.get? channel = some staged →
        ∃ expected, (case.fusedProduct.apply (case.start (kernel.has .keepsMaxima))).get? channel =
            some expected ∧
          staged.host.Alike expected ∧ (staged.pointer ≠ .null →
            (kernel.execute launch device).2.contents? staged.pointer =
              some (kernel.written channel expected).bytes) := by
  obtain ⟨loaded, hload, hagrees, hrestarts⟩ :=
    exists_loadProduct h hr harg (kernel.has .keepsMaxima)
  have hexecute : kernel.execute launch device =
      Device.storeAll (EmulatedKernel.writes launch.outputs (kernel.outputs loaded)) device := by
    unfold EmulatedKernel.execute
    rw [hload]
  rw [hexecute, Case.outputs_of_arguments harg]
  have hcomputed := fun {channel : Channel} {staged : Staged}
      (hs : case.operands.outputs.get? channel = some staged) =>
    h.exists_computed hagrees hrestarts hs
  have hroom : ∀ w ∈ EmulatedKernel.writes (case.operands.outputs.map Staged.argument)
      (kernel.outputs loaded), w.1.pointer ≠ .null →
      ∃ old, device.contents? w.1.pointer = some old ∧ old.length = w.2.bytes.length := by
    intro w hw hne
    obtain ⟨channel, hmap, hwritten⟩ := EmulatedKernel.mem_writes_iff.mp hw
    rw [Outputs.get?_map, Option.map_eq_some_iff] at hmap
    obtain ⟨staged, hs, hstaged⟩ := hmap
    have hpointer : staged.pointer = w.1.pointer := congrArg TensorArgument.pointer hstaged
    obtain ⟨t, name, ht, -, halike⟩ := hcomputed hs
    rw [EmulatedKernel.get?_outputs, ht, Option.map_some, Option.some.injEq] at hwritten
    refine ⟨staged.host.bytes, ?_, ?_⟩
    · rw [← hpointer] at hne ⊢
      exact (hr staged (Operands.mem_toList_of_output hs)).2 hne
    · rw [← hwritten, Tensor.length_bytes, Tensor.length_bytes,
        (kernel.alike_written channel t).byteSize_eq, halike.byteSize_eq]
  obtain ⟨hnone, hcontents⟩ := Device.storeAll_eq_ok hd hroom (h.pairwise_writes _)
  refine ⟨hnone, fun channel staged hs => ?_⟩
  obtain ⟨t, name, ht, hreference, halike⟩ := hcomputed hs
  refine ⟨t.renamed name, hreference, ⟨halike.type_eq, halike.layout_eq, halike.size_eq⟩,
    fun hne => ?_⟩
  have hw : (staged.argument, kernel.written channel t) ∈ EmulatedKernel.writes
      (case.operands.outputs.map Staged.argument) (kernel.outputs loaded) :=
    EmulatedKernel.mem_writes_iff.mpr ⟨channel, by rw [Outputs.get?_map, hs]; rfl,
      by rw [EmulatedKernel.get?_outputs, ht]; rfl⟩
  rw [kernel.written_renamed]
  refine hcontents _ hw hne (Nat.pos_of_ne_zero fun hcount => hne ?_)
  -- a tensor without coordinates has no bytes, so that its buffer is null
  obtain ⟨hcompact, hbuffer, hfits⟩ := h.output hs
  rw [hfits.pointer_eq_null_iff hbuffer, hcompact.size_eq, Layout.span_eq_zero_iff,
    ← halike.layout_eq, ← (kernel.alike_written channel t).layout_eq]
  exact hcount

/-- **A kernel that resets its maxima leaves the outputs of the reference, `D` with its faults.** -/
theorem Materialized.execute_offsets (h : Materialized config p x y before case placed)
    (hr : case.Resident device) (hd : device.Sound) (hk : kernel.OnlyOffsets)
    (harg : case.arguments = .ok launch) :
    (kernel.execute launch device).1 = none ∧
      ∀ channel staged, case.operands.outputs.get? channel = some staged →
        ∃ expected, (case.fusedProduct.apply case.reference).get? channel = some expected ∧
          staged.host.Alike expected ∧ (staged.pointer ≠ .null →
            (kernel.execute launch device).2.contents? staged.pointer =
              some (kernel.written channel expected).bytes) := by
  have hexecute := h.execute_start hr hd harg kernel
  rwa [hk.has_eq (by simp)] at hexecute

/-- **A kernel without faults leaves the outputs of the reference.** -/
theorem Materialized.execute (h : Materialized config p x y before case placed)
    (hr : case.Resident device) (hd : device.Sound) (hk : kernel.Faultless)
    (harg : case.arguments = .ok launch) :
    (kernel.execute launch device).1 = none ∧
      ∀ channel staged, case.operands.outputs.get? channel = some staged →
        ∃ expected, (case.fusedProduct.apply case.reference).get? channel = some expected ∧
          staged.host.Alike expected ∧ (staged.pointer ≠ .null →
            (kernel.execute launch device).2.contents? staged.pointer = some expected.bytes) := by
  obtain ⟨hnone, hwritten⟩ := h.execute_offsets hr hd hk.onlyOffsets harg
  refine ⟨hnone, fun channel staged hs => ?_⟩
  obtain ⟨expected, happly, halike, hcontents⟩ := hwritten channel staged hs
  rw [hk.written_eq] at hcontents
  exact ⟨expected, happly, halike, hcontents⟩

end Product

end FusedGemm
