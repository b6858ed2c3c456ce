import FusedGemm.Device.Buffer
import Mathlib

/-!
# Accounting of device memory

A device is *sound* if it has counted the bytes of its live allocations and every one of them has a
pointer of its own, which it has handed out before.  Devices start sound and every operation keeps
them so (`Reachable.sound`).  On a sound device a pointer finds the one allocation it belongs to
(`contents?_eq_some_iff`).

Two comparisons of devices are used: `SameShape` allows any change of contents, `others` looks at
the allocations away from a list of pointers, which is what releasing those pointers leaves
(`allocations_releaseAll`).
-/

namespace FusedGemm

/-- All of an allocation but its contents. -/
def Allocation.shape (a : Allocation) : Pointer × Nat := (a.pointer, a.bytes.length)

theorem Pointer.isNull_iff {p : Pointer} : p.isNull = true ↔ p = .null := by
  obtain ⟨address⟩ := p
  simp [isNull, null]

namespace Device

variable {device device' device'' : Device} {p : Pointer} {ps : List Pointer} {bytes : List UInt8}

/-- The pointers of the live allocations. -/
def pointers (device : Device) : List Pointer := device.allocations.map Allocation.pointer

/-- The lengths of the live allocations. -/
def lengths (device : Device) : List Nat := device.allocations.map fun a => a.bytes.length

/-- The pointers of the live allocations with their lengths. -/
def shapes (device : Device) : List (Pointer × Nat) := device.allocations.map Allocation.shape

/-- **The invariant of device memory.** -/
structure Sound (device : Device) : Prop where
  allocatedBytes_eq : device.allocatedBytes = device.lengths.sum
  nodup : device.pointers.Nodup
  granted : ∀ p ∈ device.pointers, 0 < p.address ∧ p.address ≤ device.totalAllocations

theorem sound_empty (capacity : Option Nat) : ({ capacity := capacity } : Device).Sound where
  allocatedBytes_eq := rfl
  nodup := List.nodup_nil
  granted := by simp [pointers]

theorem Sound.null_notMem (h : device.Sound) : Pointer.null ∉ device.pointers := fun hmem =>
  absurd (h.granted _ hmem).1 (by decide)

theorem Sound.nextPointer_notMem (h : device.Sound) : device.nextPointer ∉ device.pointers := by
  intro hmem
  have hle := (h.granted _ hmem).2
  simp only [nextPointer] at hle
  omega

/-! ### Looking up -/

theorem contents?_eq_none_iff : device.contents? p = none ↔ p ∉ device.pointers := by
  simp only [contents?, pointers, Option.map_eq_none_iff, List.find?_eq_none, beq_iff_eq,
    List.mem_map, not_exists, not_and]

theorem contents?_eq_some_iff (h : device.Sound) :
    device.contents? p = some bytes ↔ ⟨p, bytes⟩ ∈ device.allocations := by
  have hnodup := h.nodup
  unfold pointers at hnodup
  unfold contents?
  generalize device.allocations = as at hnodup ⊢
  induction as with
  | nil => simp
  | cons a as ih =>
    rw [List.map_cons, List.nodup_cons] at hnodup
    rw [List.find?_cons]
    by_cases hp : a.pointer = p
    · have hnot : ⟨p, bytes⟩ ∉ as := fun hmem => hnodup.1 (hp ▸ List.mem_map_of_mem hmem)
      obtain ⟨q, old⟩ := a
      subst hp
      simp [hnot, eq_comm]
    · have hne : (⟨p, bytes⟩ : Allocation) ≠ a := fun heq => hp (heq ▸ rfl)
      simp only [beq_eq_false_iff_ne.mpr hp, ih hnodup.2, List.mem_cons, hne, false_or]

theorem mem_pointers_of_contents? (h : device.contents? p = some bytes) : p ∈ device.pointers := by
  by_contra hnot
  rw [contents?_eq_none_iff.mpr hnot] at h
  cases h

/-! ### Allocating -/

/-- An allocation that is granted is the next one. -/
theorem allocate_eq_ok {n : Nat} (h : device.allocate n = .ok (p, device')) :
    p = device.nextPointer ∧ device' = device.grant n := by
  unfold allocate at h
  split at h
  · split_ifs at h
    cases h
    exact ⟨rfl, rfl⟩
  · cases h
    exact ⟨rfl, rfl⟩

theorem Sound.grant (h : device.Sound) (n : Nat) : (device.grant n).Sound where
  allocatedBytes_eq := by
    show device.allocatedBytes + n = ((List.replicate n (0 : UInt8)).length :: device.lengths).sum
    rw [h.allocatedBytes_eq, List.length_replicate, List.sum_cons, Nat.add_comm]
  nodup := List.nodup_cons.mpr ⟨h.nextPointer_notMem, h.nodup⟩
  granted q hq := by
    show 0 < q.address ∧ q.address ≤ device.totalAllocations + 1
    rcases List.mem_cons.mp hq with rfl | hq
    · simp only [nextPointer]
      omega
    · have := h.granted q hq
      omega

theorem nextPointer_ne_null (device : Device) : device.nextPointer ≠ .null := by
  simp [nextPointer, Pointer.null]

/-- A buffer is null and costs nothing where it is empty, and else is the next allocation. -/
theorem buffer_allocate_eq_ok {n : Nat} {buffer : Buffer}
    (h : Buffer.allocate n device = .ok (buffer, device')) :
    (n = 0 ∧ buffer = ⟨.null, 0⟩ ∧ device' = device) ∨
      (n ≠ 0 ∧ buffer = ⟨device.nextPointer, n⟩ ∧ device' = device.grant n) := by
  unfold Buffer.allocate at h
  split_ifs at h with hn
  · cases h
    exact Or.inl ⟨hn, rfl, rfl⟩
  · cases ha : device.allocate n with
    | error e => rw [ha] at h; cases h
    | ok r =>
      obtain ⟨p, granted⟩ := r
      obtain ⟨rfl, rfl⟩ := allocate_eq_ok ha
      rw [ha] at h
      cases h
      exact Or.inr ⟨hn, rfl, rfl⟩

theorem Sound.buffer_allocate (hd : device.Sound) {n : Nat} {buffer : Buffer}
    (h : Buffer.allocate n device = .ok (buffer, device')) : device'.Sound := by
  rcases buffer_allocate_eq_ok h with ⟨-, -, rfl⟩ | ⟨-, -, rfl⟩
  · exact hd
  · exact hd.grant n

/-- A new buffer leaves the contents of the live allocations. -/
theorem Sound.contents?_buffer_allocate (hd : device.Sound) {n : Nat} {buffer : Buffer}
    (h : Buffer.allocate n device = .ok (buffer, device')) (hq : device.contents? q = some bytes) :
    device'.contents? q = some bytes := by
  rcases buffer_allocate_eq_ok h with ⟨-, -, rfl⟩ | ⟨-, -, rfl⟩
  · exact hq
  · have hne : device.nextPointer ≠ q := fun heq =>
      hd.nextPointer_notMem (heq ▸ mem_pointers_of_contents? hq)
    show ((_ :: device.allocations).find? _).map _ = _
    rw [List.find?_cons_of_neg (by simpa using hne)]
    exact hq

theorem pending_buffer_allocate {n : Nat} {buffer : Buffer}
    (h : Buffer.allocate n device = .ok (buffer, device')) : device'.pending = device.pending := by
  rcases buffer_allocate_eq_ok h with ⟨-, -, rfl⟩ | ⟨-, -, rfl⟩ <;> rfl

theorem capacity_buffer_allocate {n : Nat} {buffer : Buffer}
    (h : Buffer.allocate n device = .ok (buffer, device')) :
    device'.capacity = device.capacity := by
  rcases buffer_allocate_eq_ok h with ⟨-, -, rfl⟩ | ⟨-, -, rfl⟩ <;> rfl

/-! ### Releasing -/

/-- The live allocations away from the given pointers. -/
def others (device : Device) (ps : List Pointer) : List Allocation :=
  device.allocations.filter fun a => a.pointer ∉ ps

theorem others_eq_self (h : ∀ p ∈ ps, p ∉ device.pointers) :
    device.others ps = device.allocations := by
  unfold others
  rw [List.filter_eq_self]
  intro a ha
  exact decide_eq_true fun hmem => h _ hmem (List.mem_map_of_mem ha)

theorem allocations_release (device : Device) (p : Pointer) :
    (device.release p).allocations = device.others [p] := by
  unfold release free
  cases hc : device.contents? p with
  | none =>
    refine (others_eq_self fun q hq => ?_).symm
    rw [List.mem_singleton.mp hq]
    exact contents?_eq_none_iff.mp hc
  | some bytes =>
    refine List.filter_congr fun a _ => ?_
    by_cases h : a.pointer = p <;> simp [h]

/-- What is left of the bytes when the allocation at a pointer goes. -/
theorem sum_lengths_filter {as : List Allocation} (hnodup : (as.map Allocation.pointer).Nodup)
    (h : ⟨p, bytes⟩ ∈ as) :
    (as.map fun a => a.bytes.length).sum =
      bytes.length + ((as.filter fun a => a.pointer ∉ [p]).map fun a => a.bytes.length).sum := by
  induction as with
  | nil => simp at h
  | cons a as ih =>
    rw [List.map_cons, List.nodup_cons] at hnodup
    rcases List.mem_cons.mp h with rfl | hmem
    · have hkeep : (as.filter fun a => a.pointer ∉ [p]) = as := by
        rw [List.filter_eq_self]
        intro b hb
        refine decide_eq_true fun heq => hnodup.1 ?_
        have hmem := List.mem_map_of_mem (f := Allocation.pointer) hb
        rwa [List.mem_singleton.mp heq] at hmem
      rw [List.filter_cons_of_neg (by simp), hkeep, List.map_cons, List.sum_cons]
    · have hne : a.pointer ≠ p := fun heq => hnodup.1 (heq ▸ List.mem_map_of_mem hmem)
      rw [List.filter_cons_of_pos (by simpa using hne), List.map_cons, List.map_cons,
        List.sum_cons, List.sum_cons, ih hnodup.2 hmem]
      omega

theorem Sound.release (h : device.Sound) (p : Pointer) : (device.release p).Sound := by
  have hsub : ∀ q ∈ (device.release p).pointers, q ∈ device.pointers := by
    intro q hq
    unfold pointers at hq ⊢
    rw [allocations_release] at hq
    exact (List.filter_sublist.map _).mem hq
  have htotal : (device.release p).totalAllocations = device.totalAllocations := by
    unfold Device.release free
    cases device.contents? p <;> rfl
  refine ⟨?_, ?_, fun q hq => htotal ▸ h.granted q (hsub q hq)⟩
  · unfold lengths
    rw [allocations_release]
    unfold Device.release free
    cases hc : device.contents? p with
    | none =>
      rw [others_eq_self fun q hq => List.mem_singleton.mp hq ▸ contents?_eq_none_iff.mp hc]
      exact h.allocatedBytes_eq
    | some bytes =>
      have hsum := sum_lengths_filter h.nodup ((contents?_eq_some_iff h).mp hc)
      have hbytes := h.allocatedBytes_eq
      unfold lengths at hbytes
      show device.allocatedBytes - bytes.length = _
      rw [hbytes, hsum]
      exact Nat.add_sub_cancel_left _ _
  · unfold pointers
    rw [allocations_release]
    exact h.nodup.sublist (List.filter_sublist.map _)

theorem Sound.releaseAll (h : device.Sound) (ps : List Pointer) : (device.releaseAll ps).Sound := by
  unfold Device.releaseAll
  induction ps generalizing device with
  | nil => exact h
  | cons p ps ih => exact ih (h.release p)

/-- **Releasing leaves the other allocations.** -/
theorem allocations_releaseAll (device : Device) (ps : List Pointer) :
    (device.releaseAll ps).allocations = device.others ps := by
  unfold releaseAll
  induction ps generalizing device with
  | nil => simp [others]
  | cons p ps ih =>
    rw [List.foldl_cons, ih]
    unfold others
    rw [allocations_release]
    simp only [others, List.filter_filter, List.mem_cons, List.not_mem_nil, or_false, not_or]
    refine List.filter_congr fun a _ => ?_
    by_cases h : a.pointer = p <;> simp [h]

/-! ### Changes of contents -/

theorem map_fst_shapes (device : Device) : device.shapes.map Prod.fst = device.pointers := by
  simp only [shapes, List.map_map]
  rfl

theorem map_snd_shapes (device : Device) : device.shapes.map Prod.snd = device.lengths := by
  simp only [shapes, List.map_map]
  rfl

theorem shapes_others (device : Device) (ps : List Pointer) :
    (device.others ps).map Allocation.shape = device.shapes.filter fun s => s.1 ∉ ps := by
  unfold shapes
  rw [List.filter_map]
  rfl

/-- The devices have the same allocations, up to what these hold, and the same counts. -/
structure SameShape (device device' : Device) : Prop where
  shapes_eq : device'.shapes = device.shapes
  allocatedBytes_eq : device'.allocatedBytes = device.allocatedBytes
  totalAllocations_eq : device'.totalAllocations = device.totalAllocations
  capacity_eq : device'.capacity = device.capacity

theorem SameShape.refl (device : Device) : SameShape device device := ⟨rfl, rfl, rfl, rfl⟩

theorem SameShape.trans (h : SameShape device device') (h' : SameShape device' device'') :
    SameShape device device'' where
  shapes_eq := h'.shapes_eq.trans h.shapes_eq
  allocatedBytes_eq := h'.allocatedBytes_eq.trans h.allocatedBytes_eq
  totalAllocations_eq := h'.totalAllocations_eq.trans h.totalAllocations_eq
  capacity_eq := h'.capacity_eq.trans h.capacity_eq

theorem SameShape.pointers_eq (h : SameShape device device') :
    device'.pointers = device.pointers := by
  rw [← map_fst_shapes, ← map_fst_shapes, h.shapes_eq]

theorem SameShape.lengths_eq (h : SameShape device device') : device'.lengths = device.lengths := by
  rw [← map_snd_shapes, ← map_snd_shapes, h.shapes_eq]

theorem Sound.of_sameShape (h : device.Sound) (hs : SameShape device device') : device'.Sound where
  allocatedBytes_eq := by rw [hs.allocatedBytes_eq, hs.lengths_eq, h.allocatedBytes_eq]
  nodup := hs.pointers_eq ▸ h.nodup
  granted := by
    rw [hs.pointers_eq, hs.totalAllocations_eq]
    exact h.granted

/-- As many bytes are live, in as many allocations. -/
def SameCounts (device device' : Device) : Prop :=
  device'.allocatedBytes = device.allocatedBytes ∧ device'.liveAllocations = device.liveAllocations

theorem Sound.sameCounts (h : device.Sound) (h' : device'.Sound)
    (hs : device'.shapes = device.shapes) : SameCounts device device' := by
  refine ⟨?_, ?_⟩
  · rw [h.allocatedBytes_eq, h'.allocatedBytes_eq, ← map_snd_shapes, ← map_snd_shapes, hs]
  · simpa [shapes, liveAllocations] using congrArg List.length hs

/-! ### Writing and reading -/

/-- What a successful write does. -/
theorem write_eq_ok (h : device.write p bytes = .ok device') :
    (∃ old, device.contents? p = some old ∧ old.length = bytes.length) ∧
      device' = { device with
        allocations := device.allocations.map fun a =>
          if a.pointer = p then { a with bytes := bytes } else a } := by
  unfold write at h
  cases hc : device.contents? p with
  | none => simp [hc] at h
  | some old =>
    simp only [hc] at h
    split_ifs at h with hl
    cases h
    exact ⟨⟨old, rfl, hl⟩, rfl⟩

/-- Bytes of the right number can be written. -/
theorem exists_write_eq_ok {old : List UInt8} (hc : device.contents? p = some old)
    (hl : old.length = bytes.length) : ∃ device', device.write p bytes = .ok device' := by
  simp [write, hc, hl]

theorem read_eq_ok (hc : device.contents? p = some bytes) {n : Nat} (hl : bytes.length = n) :
    device.read p n = .ok bytes := by
  simp [read, hc, hl]

theorem Sound.sameShape_write (hd : device.Sound) (h : device.write p bytes = .ok device') :
    SameShape device device' := by
  obtain ⟨⟨old, hc, hl⟩, rfl⟩ := write_eq_ok h
  refine ⟨?_, rfl, rfl, rfl⟩
  simp only [shapes, List.map_map]
  refine List.map_congr_left fun a ha => ?_
  by_cases hp : a.pointer = p
  · have hold : device.contents? p = some a.bytes := (contents?_eq_some_iff hd).mpr (hp ▸ ha)
    rw [hc, Option.some.injEq] at hold
    simp [Allocation.shape, hp, ← hold, hl]
  · simp [Allocation.shape, hp]

/-- A write changes nothing away from its pointer. -/
theorem others_write (h : device.write p bytes = .ok device') (hp : p ∈ ps) :
    device'.others ps = device.others ps := by
  obtain ⟨-, rfl⟩ := write_eq_ok h
  unfold others
  simp only [List.filter_map]
  have hcomp : ((fun a : Allocation => decide (a.pointer ∉ ps)) ∘ fun a =>
      if a.pointer = p then { a with bytes := bytes } else a) = fun a => decide (a.pointer ∉ ps) := by
    funext a
    by_cases ha : a.pointer = p <;> simp [ha, hp]
  rw [hcomp]
  refine (List.map_congr_left (g := id) fun a ha => ?_).trans (List.map_id _)
  have hne : a.pointer ≠ p := by
    rintro rfl
    exact absurd hp (by simpa using (List.mem_filter.mp ha).2)
  exact if_neg hne

/-- Away from the given pointers the contents are those of the other allocations. -/
theorem contents?_eq_of_others (h : device'.others ps = device.others ps) {q : Pointer}
    (hq : q ∉ ps) : device'.contents? q = device.contents? q := by
  have hfind : ∀ d : Device, d.contents? q =
      ((d.others ps).find? fun a => a.pointer == q).map Allocation.bytes := by
    intro d
    unfold contents? others
    rw [List.find?_filter]
    refine congrArg (Option.map Allocation.bytes) (List.find?_congr fun a _ => ?_)
    by_cases ha : a.pointer = q <;> simp [ha, hq]
  rw [hfind, hfind, h]

theorem contents?_write_self (h : device.write p bytes = .ok device') :
    device'.contents? p = some bytes := by
  obtain ⟨⟨old, hc, -⟩, rfl⟩ := write_eq_ok h
  unfold contents? at hc ⊢
  dsimp only
  generalize device.allocations = as at hc
  induction as with
  | nil => simp at hc
  | cons a as ih =>
    rw [List.map_cons, List.find?_cons]
    rw [List.find?_cons] at hc
    by_cases ha : a.pointer = p
    · simp [ha]
    · have hf : (a.pointer == p) = false := beq_eq_false_iff_ne.mpr ha
      rw [hf] at hc
      rw [if_neg ha, hf]
      exact ih hc

theorem contents?_write_of_ne (h : device.write p bytes = .ok device') {q : Pointer} (hq : q ≠ p) :
    device'.contents? q = device.contents? q := by
  obtain ⟨-, rfl⟩ := write_eq_ok h
  unfold contents?
  dsimp only
  induction device.allocations with
  | nil => rfl
  | cons a as ih =>
    rw [List.map_cons, List.find?_cons, List.find?_cons]
    by_cases ha : a.pointer = p
    · have hf : (a.pointer == q) = false := beq_eq_false_iff_ne.mpr fun he => hq (he ▸ ha)
      rw [if_pos ha]
      dsimp only
      rw [hf]
      exact ih
    · rw [if_neg ha]
      cases a.pointer == q with
      | true => rfl
      | false => exact ih

theorem pending_write (h : device.write p bytes = .ok device') :
    device'.pending = device.pending := by
  obtain ⟨-, rfl⟩ := write_eq_ok h
  rfl

/-! ### Reachable devices -/

/-- The devices that operations lead to, from one without allocations. -/
inductive Reachable : Device → Prop
  | start (capacity : Option Nat) : Reachable { capacity := capacity }
  | allocate {x y : Device} {n : Nat} {q : Pointer} :
    Reachable x → x.allocate n = .ok (q, y) → Reachable y
  | release {x : Device} (q : Pointer) : Reachable x → Reachable (x.release q)
  | write {x y : Device} {q : Pointer} {bs : List UInt8} :
    Reachable x → x.write q bs = .ok y → Reachable y
  | failNext {x : Device} (e : DeviceError) : Reachable x → Reachable (x.failNext e)
  | synchronize {x : Device} : Reachable x → Reachable x.synchronize.2

theorem sameShape_failNext (device : Device) (e : DeviceError) :
    SameShape device (device.failNext e) := ⟨rfl, rfl, rfl, rfl⟩

theorem others_synchronize (device : Device) (ps : List Pointer) :
    device.synchronize.2.others ps = device.others ps := rfl

theorem sameShape_synchronize (device : Device) : SameShape device device.synchronize.2 :=
  ⟨rfl, rfl, rfl, rfl⟩

/-- **Every operation keeps devices sound.** -/
theorem Reachable.sound (h : Reachable device) : device.Sound := by
  induction h with
  | start capacity => exact sound_empty capacity
  | allocate _ ha ih =>
    obtain ⟨-, rfl⟩ := allocate_eq_ok ha
    exact ih.grant _
  | release p _ ih => exact ih.release p
  | write _ hw ih => exact ih.of_sameShape (ih.sameShape_write hw)
  | failNext e _ ih => exact ih.of_sameShape (sameShape_failNext _ e)
  | synchronize _ ih => exact ih.of_sameShape (sameShape_synchronize _)

end Device

end FusedGemm
