import FusedGemm.Proofs.Device.Histories

/-!
# What a device counts

The events of a session tell which allocations were granted, which pointers were freed, and so
which allocations are live.  The invariant `Session.Accounted` ties the counters of the device to
these lists; every effect keeps it (`Accounted.effect`), and `counters_performAll` reads it off
after any operations.
-/

namespace FusedGemm

/-- What is live can be freed, and nothing else. -/
theorem Device.exists_free_iff {device : Device} {p : Pointer} :
    (∃ device', device.free p = .ok device') ↔ p ∈ device.pointers := by
  unfold free
  constructor
  · rintro ⟨device', h⟩
    by_contra hnot
    rw [contents?_eq_none_iff.mpr hnot] at h
    cases h
  · intro hmem
    cases hc : device.contents? p with
    | none => exact absurd hmem (contents?_eq_none_iff.mp hc)
    | some bytes => exact ⟨_, rfl⟩

namespace Event

/-- The pointer and the length of an allocation that is granted. -/
def granted? : Event → Option (Pointer × Nat)
  | granted p n => some (p, n)
  | _ => none

/-- The pointer that is freed. -/
def freed? : Event → Option Pointer
  | freed p => some p
  | _ => none

end Event

namespace Session

variable {s : Session} {device' : Device} {p : Pointer} {n : Nat} {bytes : List UInt8}

/-- The allocations granted so far, the latest first. -/
def granted (s : Session) : List (Pointer × Nat) := s.events.filterMap Event.granted?

/-- The pointers freed so far, the latest first. -/
def freed (s : Session) : List Pointer := s.events.filterMap Event.freed?

/-- The allocations granted and not freed since. -/
def live (s : Session) : List (Pointer × Nat) := s.granted.filter fun g => g.1 ∉ s.freed

theorem live_granted (h : p ∉ s.freed) :
    live ⟨device', .granted p n :: s.events⟩ = (p, n) :: s.live :=
  List.filter_cons_of_pos (p := fun g : Pointer × Nat => decide (g.1 ∉ s.freed)) (decide_eq_true h)

theorem live_freed :
    live ⟨device', .freed p :: s.events⟩ = s.live.filter fun g => g.1 ∉ [p] := by
  have hfilter : live ⟨device', .freed p :: s.events⟩ =
      s.granted.filter fun g => g.1 ∉ p :: s.freed := rfl
  rw [hfilter, live, List.filter_filter]
  refine List.filter_congr fun g _ => ?_
  simp

/-- **The invariant of the counters.** -/
structure Accounted (s : Session) : Prop where
  sound : s.device.Sound
  shapes_eq : s.device.shapes = s.live
  totalAllocations_eq : s.device.totalAllocations = s.granted.length
  nodup_granted : (s.granted.map Prod.fst).Nodup
  granted_bound : ∀ q ∈ s.granted.map Prod.fst, 0 < q.address ∧ q.address ≤ s.granted.length
  nodup_freed : s.freed.Nodup
  freed_subset : ∀ q ∈ s.freed, q ∈ s.granted.map Prod.fst
  allocatedBytes_le : ∀ c, s.device.capacity = some c → s.device.allocatedBytes ≤ c

theorem accounted_start (capacity : Option Nat) : (start capacity).Accounted where
  sound := Device.sound_empty capacity
  shapes_eq := rfl
  totalAllocations_eq := rfl
  nodup_granted := List.nodup_nil
  granted_bound _ hq := absurd hq List.not_mem_nil
  nodup_freed := List.nodup_nil
  freed_subset _ hq := absurd hq List.not_mem_nil
  allocatedBytes_le c _ := Nat.zero_le c

namespace Accounted

theorem map_fst_live (h : s.Accounted) : s.live.map Prod.fst = s.device.pointers := by
  rw [← Device.map_fst_shapes, h.shapes_eq]

/-- A live pointer was granted and not freed. -/
theorem of_mem_pointers (h : s.Accounted) (hp : p ∈ s.device.pointers) :
    p ∈ s.granted.map Prod.fst ∧ p ∉ s.freed := by
  rw [← h.map_fst_live] at hp
  obtain ⟨g, hg, rfl⟩ := List.mem_map.mp hp
  obtain ⟨hgranted, hfreed⟩ := List.mem_filter.mp hg
  exact ⟨List.mem_map_of_mem hgranted, of_decide_eq_true hfreed⟩

/-- The next pointer is new. -/
theorem nextPointer_notMem (h : s.Accounted) :
    s.device.nextPointer ∉ s.granted.map Prod.fst := by
  intro hmem
  have hle := (h.granted_bound _ hmem).2
  have htotal := h.totalAllocations_eq
  simp only [Device.nextPointer] at hle
  omega

/-! ### Effects -/

theorem grant (h : s.Accounted) (hn : s.device.allocate n = .ok (p, device')) :
    Accounted ⟨device', .granted p n :: s.events⟩ := by
  have hcapacity : ∀ c, s.device.capacity = some c → s.device.allocatedBytes + n ≤ c := by
    intro c hc
    have hle := h.allocatedBytes_le c hc
    unfold Device.allocate Device.available? at hn
    simp only [hc, Option.map_some] at hn
    split_ifs at hn with hlt
    omega
  obtain ⟨rfl, rfl⟩ := Device.allocate_eq_ok hn
  have hnew := h.nextPointer_notMem
  have hfresh : s.device.nextPointer ∉ s.freed := fun hmem => hnew (h.freed_subset _ hmem)
  have haddress : s.device.nextPointer.address = s.granted.length + 1 :=
    congrArg (· + 1) h.totalAllocations_eq
  refine ⟨h.sound.grant n, ?_, ?_, ?_, ?_, h.nodup_freed, ?_, hcapacity⟩
  · have hshapes : (s.device.grant n).shapes =
        (s.device.nextPointer, (List.replicate n (0 : UInt8)).length) :: s.device.shapes := rfl
    rw [live_granted hfresh, hshapes, List.length_replicate, h.shapes_eq]
  · exact congrArg (· + 1) h.totalAllocations_eq
  · exact List.nodup_cons.mpr ⟨hnew, h.nodup_granted⟩
  · intro q hq
    show 0 < q.address ∧ q.address ≤ s.granted.length + 1
    rcases List.mem_cons.mp hq with rfl | hq
    · refine ⟨?_, haddress.le⟩
      exact haddress ▸ Nat.succ_pos _
    · have hbound := h.granted_bound q hq
      omega
  · exact fun q hq => List.mem_cons_of_mem _ (h.freed_subset q hq)

theorem write (h : s.Accounted) (hw : s.device.write p bytes = .ok device') :
    Accounted ⟨device', .written p bytes :: s.events⟩ := by
  have hsame := h.sound.sameShape_write hw
  refine ⟨h.sound.of_sameShape hsame, hsame.shapes_eq.trans h.shapes_eq,
    hsame.totalAllocations_eq.trans h.totalAllocations_eq, h.nodup_granted, h.granted_bound,
    h.nodup_freed, h.freed_subset, ?_⟩
  intro c hc
  have hcapacity : s.device.capacity = some c := hsame.capacity_eq.symm.trans hc
  exact hsame.allocatedBytes_eq.trans_le (h.allocatedBytes_le c hcapacity)

theorem free (h : s.Accounted) (hf : s.device.free p = .ok device') :
    Accounted ⟨device', .freed p :: s.events⟩ := by
  have hrelease : device' = s.device.release p := by
    unfold Device.release
    rw [hf]
  have hmem : p ∈ s.device.pointers := Device.exists_free_iff.mp ⟨device', hf⟩
  have hfields : device'.capacity = s.device.capacity ∧
      device'.totalAllocations = s.device.totalAllocations ∧
      device'.allocatedBytes ≤ s.device.allocatedBytes := by
    unfold Device.free at hf
    split at hf
    · cases hf
    · cases hf
      exact ⟨rfl, rfl, Nat.sub_le _ _⟩
  obtain ⟨hgranted, hlive⟩ := h.of_mem_pointers hmem
  obtain ⟨hcapacity, htotal, hbytes⟩ := hfields
  refine ⟨hrelease ▸ h.sound.release p, ?_, htotal.trans h.totalAllocations_eq, h.nodup_granted,
    h.granted_bound, List.nodup_cons.mpr ⟨hlive, h.nodup_freed⟩, ?_, ?_⟩
  · have hothers : device'.shapes = s.device.shapes.filter fun g => g.1 ∉ [p] := by
      rw [hrelease]
      unfold Device.shapes
      rw [Device.allocations_release]
      exact Device.shapes_others s.device [p]
    rw [hothers, h.shapes_eq, live_freed]
  · intro q hq
    rcases List.mem_cons.mp hq with rfl | hq
    · exact hgranted
    · exact h.freed_subset q hq
  · intro c hc
    exact hbytes.trans (h.allocatedBytes_le c (hcapacity.symm.trans hc))

/-- What is pending does not count. -/
theorem keep (h : s.Accounted) (pending : Option DeviceError) :
    Accounted ⟨{ s.device with pending := pending }, s.events⟩ where
  sound := h.sound.of_sameShape ⟨rfl, rfl, rfl, rfl⟩
  shapes_eq := h.shapes_eq
  totalAllocations_eq := h.totalAllocations_eq
  nodup_granted := h.nodup_granted
  granted_bound := h.granted_bound
  nodup_freed := h.nodup_freed
  freed_subset := h.freed_subset
  allocatedBytes_le := h.allocatedBytes_le

theorem effect {event : Option Event} (h : s.Accounted)
    (he : Operation.Effect s.device event device') :
    Accounted ⟨device', event.toList ++ s.events⟩ := by
  cases he with
  | kept pending => exact h.keep pending
  | granted ha => exact h.grant ha
  | written hw => exact h.write hw
  | freed hf => exact h.free hf

/-- **Every session is accounted for.** -/
theorem performAll (h : s.Accounted) (ops : List Operation) : (s.performAll ops).Accounted :=
  performAll_of_effect (P := Accounted) (fun _ _ _ => effect) ops h

/-! ### Counts -/

/-- What was granted is live or freed. -/
theorem length_live_add (h : s.Accounted) : s.live.length + s.freed.length = s.granted.length := by
  have hgone : ((s.granted.map Prod.fst).filter (· ∈ s.freed)).Perm s.freed := by
    refine (List.perm_ext_iff_of_nodup (h.nodup_granted.filter _) h.nodup_freed).mpr fun q => ?_
    rw [List.mem_filter, decide_eq_true_iff]
    exact ⟨And.right, fun hq => ⟨h.freed_subset q hq, hq⟩⟩
  have hcount : (s.granted.filter fun g => g.1 ∈ s.freed).length = s.freed.length := by
    rw [← hgone.length_eq, List.filter_map, List.length_map]
    rfl
  have hsplit := List.length_eq_length_filter_add (l := s.granted) fun g => decide (g.1 ∉ s.freed)
  simp only [decide_not, Bool.not_not, hcount] at hsplit
  simp only [live, decide_not]
  exact hsplit.symm

end Accounted

theorem capacity_performAll (capacity : Option Nat) (ops : List Operation) :
    ((start capacity).performAll ops).device.capacity = capacity := by
  refine performAll_of_effect (P := fun s => s.device.capacity = capacity) ?_ ops rfl
  intro s event device' hs he
  cases he with
  | kept pending => exact hs
  | granted ha =>
    obtain ⟨-, rfl⟩ := Device.allocate_eq_ok ha
    exact hs
  | written hw =>
    obtain ⟨-, rfl⟩ := Device.write_eq_ok hw
    exact hs
  | freed hf =>
    unfold Device.free at hf
    split at hf
    · cases hf
    · cases hf
      exact hs

/-- An allocation is refused if it is longer than what is left of the capacity. -/
theorem allocate_eq_error_iff {device : Device} {e : DeviceError} :
    device.allocate n = .error e ↔ ∃ c, device.capacity = some c ∧
      c - device.allocatedBytes < n ∧ e = .outOfMemory n (c - device.allocatedBytes) := by
  unfold Device.allocate Device.available?
  cases hc : device.capacity with
  | none => simp
  | some c =>
    simp only [Option.map_some]
    by_cases hn : c - device.allocatedBytes < n
    · simp [hn, eq_comm]
    · simp [hn]

/-- **The counters of a device, whatever has been asked of it.**  They count what is live and what
was granted; the capacity is never exceeded, and an allocation is refused just when it would be,
with the number of bytes that are left; one that is granted has a pointer that is new.  What is live
can be freed, once. -/
theorem counters_performAll (capacity : Option Nat) (ops : List Operation) :
    let s := (start capacity).performAll ops
    s.device.shapes = s.live ∧
    s.device.allocatedBytes = (s.live.map Prod.snd).sum ∧
    s.device.liveAllocations + s.freed.length = s.granted.length ∧
    s.device.totalAllocations = s.granted.length ∧
    (∀ c, capacity = some c → s.device.allocatedBytes ≤ c) ∧
    (∀ n e, s.device.allocate n = .error e ↔ ∃ c, capacity = some c ∧
      c - s.device.allocatedBytes < n ∧ e = .outOfMemory n (c - s.device.allocatedBytes)) ∧
    (∀ n p device', s.device.allocate n = .ok (p, device') →
      p ≠ .null ∧ p ∉ s.granted.map Prod.fst) ∧
    (∀ p, (∃ device', s.device.free p = .ok device') ↔ p ∈ s.live.map Prod.fst) := by
  intro s
  have h : s.Accounted := (accounted_start capacity).performAll ops
  have hcapacity : s.device.capacity = capacity := capacity_performAll capacity ops
  have hbytes : s.device.allocatedBytes = (s.live.map Prod.snd).sum := by
    rw [h.sound.allocatedBytes_eq, ← Device.map_snd_shapes, h.shapes_eq]
  have hlive : s.device.liveAllocations = s.live.length := by
    rw [← h.shapes_eq, Device.shapes, List.length_map, Device.liveAllocations]
  refine ⟨h.shapes_eq, hbytes, ?_, h.totalAllocations_eq, ?_, ?_, ?_, ?_⟩
  · rw [hlive]
    exact h.length_live_add
  · exact fun c hc => h.allocatedBytes_le c (hcapacity.trans hc)
  · intro n e
    rw [← hcapacity]
    exact allocate_eq_error_iff
  · intro n p device' ha
    obtain ⟨rfl, -⟩ := Device.allocate_eq_ok ha
    exact ⟨s.device.nextPointer_ne_null, h.nextPointer_notMem⟩
  · intro p
    rw [h.map_fst_live]
    exact Device.exists_free_iff

end Session

end FusedGemm
