import FusedGemm.Fusion.Broadcast
import FusedGemm.Proofs.Tensor.Bounds

/-!
# Views of broadcast numbers

The numbers of a broadcast are stored one after the other and seen over the output through a view
with zero strides.  The view reaches all of them and nothing else (`Broadcast.image_offset_layout`),
and two coordinates of the output share a number if and only if they agree in the modes that the
broadcast depends on (`Broadcast.offset_layout_eq_iff`).  So where the output is not empty, the
number of them is the span of the view (`Broadcast.span_layout_eq_count`).
-/

namespace FusedGemm

/-- A layout whose offsets are the numbers below `n` spans `n` elements. -/
theorem Layout.span_of_image {layout : Layout} {n : Nat}
    (h : layout.offset '' {c | c ∈ layout.extent} = Set.Iio n) : layout.span = n := by
  have hreach : ∀ i, (∃ c ∈ layout.extent, layout.offset c = i) ↔ i < n := fun i => by
    rw [← Set.mem_Iio, ← h]
    exact Iff.rfl
  apply le_antisymm
  · rcases Nat.eq_zero_or_pos layout.span with hzero | hpos
    · omega
    · have hlast := (hreach _).mp (exists_offset_eq hpos)
      omega
  · rcases Nat.eq_zero_or_pos n with hzero | hpos
    · omega
    · obtain ⟨c, hc, hoffset⟩ := (hreach (n - 1)).mpr (by omega)
      have hlt := offset_lt_span hc
      omega

namespace Broadcast

variable {b : Broadcast} {p : Problem} {c c' : Coord}

/-- How many numbers a broadcast stores. -/
def count (b : Broadcast) (p : Problem) : Nat :=
  match b with
  | .scalar => 1
  | .perBatch => p.batch
  | .perRowPerBatch => p.m * p.batch

/-- The coordinates agree in the modes that a broadcast depends on. -/
def Agree (b : Broadcast) (c c' : Coord) : Prop :=
  match b with
  | .scalar => True
  | .perBatch => c.batch = c'.batch
  | .perRowPerBatch => c.row = c'.row ∧ c.batch = c'.batch

/-- The position of the number for a coordinate among the stored ones. -/
theorem offset_layout (b : Broadcast) (p : Problem) (c : Coord) : (b.layout p).offset c =
    match b with
    | .scalar => 0
    | .perBatch => c.batch
    | .perRowPerBatch => c.row + c.batch * p.m := by
  cases b <;> simp [layout, stride, Stride.none, Layout.offset]

/-- **Coordinates share a number if they agree in the modes that the broadcast depends on.** -/
theorem offset_layout_eq_iff (b : Broadcast) (hc : c ∈ p.outputExtent) (hc' : c' ∈ p.outputExtent) :
    (b.layout p).offset c = (b.layout p).offset c' ↔ b.Agree c c' := by
  rw [offset_layout, offset_layout]
  cases b with
  | scalar => exact iff_of_true rfl trivial
  | perBatch => exact Iff.rfl
  | perRowPerBatch =>
    have hrow : c.row < p.m := hc.1
    have hrow' : c'.row < p.m := hc'.1
    refine ⟨fun h => ?_, fun ⟨hr, hb⟩ => by rw [hr, hb]⟩
    have hmod := congrArg (· % p.m) h
    dsimp only at hmod
    rw [Nat.add_mul_mod_self_right, Nat.add_mul_mod_self_right, Nat.mod_eq_of_lt hrow,
      Nat.mod_eq_of_lt hrow'] at hmod
    rw [hmod] at h
    exact ⟨hmod, Nat.eq_of_mul_eq_mul_right (Nat.zero_lt_of_lt hrow') (Nat.add_left_cancel h)⟩

theorem count_of_length? {n : Nat} (h : b.length? p = some n) : b.count p = n := by
  cases b with
  | scalar => exact Option.some.inj h
  | perBatch => exact Option.some.inj h
  | perRowPerBatch => exact (AddressSpace.mul?_eq_some_iff.mp h).2

/-- An addressable count is found. -/
theorem length?_of_count_lt (h : b.count p < AddressSpace.limit) :
    b.length? p = some (b.count p) := by
  cases b with
  | scalar => rfl
  | perBatch => rfl
  | perRowPerBatch => exact AddressSpace.mul?_of_lt h

section Output
variable (hm : 1 ≤ p.m) (hn : 1 ≤ p.n)
include hm hn

/-- **The view reaches the stored numbers and nothing else.** -/
theorem image_offset_layout (b : Broadcast) :
    (b.layout p).offset '' {c | c ∈ p.outputExtent} = Set.Iio (b.count p) := by
  have hl := p.batch_pos
  ext i
  simp only [Set.mem_image, Set.mem_ofPred_eq, Set.mem_Iio, offset_layout, Extent.mem_def,
    Problem.outputExtent]
  cases b with
  | scalar =>
    refine ⟨?_, fun hi => ⟨.origin, ⟨hm, hn, hl⟩, (Nat.lt_one_iff.mp hi).symm⟩⟩
    rintro ⟨c, -, rfl⟩
    exact Nat.one_pos
  | perBatch =>
    refine ⟨?_, fun hi => ⟨⟨0, 0, i⟩, ⟨hm, hn, hi⟩, rfl⟩⟩
    rintro ⟨c, ⟨-, -, hc⟩, rfl⟩
    exact hc
  | perRowPerBatch =>
    constructor
    · rintro ⟨c, ⟨hrow, -, hbatch⟩, rfl⟩
      have hle := Nat.mul_le_mul_right p.m (show c.batch + 1 ≤ p.batch from hbatch)
      rw [Nat.add_mul, Nat.one_mul, Nat.mul_comm p.batch] at hle
      show c.row + c.batch * p.m < p.m * p.batch
      omega
    · intro hi
      have hsplit := Nat.mod_add_div' i p.m
      exact ⟨⟨i % p.m, 0, i / p.m⟩, ⟨Nat.mod_lt i hm, hn, Nat.div_lt_of_lt_mul hi⟩, hsplit⟩

theorem span_layout_eq_count (b : Broadcast) : (b.layout p).span = b.count p :=
  Layout.span_of_image (image_offset_layout hm hn b)

end Output

/-- Over an output that is not empty, a broadcast reaches all the numbers that are stored. -/
theorem span_layout {n : Nat} (h : b.length? p = some n) (hpos : 0 < p.outputExtent.count) :
    (b.layout p).span = n := by
  obtain ⟨hm, hn, -⟩ := Extent.pos_of_mem (Extent.origin_mem hpos)
  rw [span_layout_eq_count hm hn, count_of_length? h]

/-- The numbers are counted where their count is addressable. -/
theorem length?_eq_check (b : Broadcast) (hl : p.batch < AddressSpace.limit) :
    b.length? p = AddressSpace.check (b.count p) := by
  cases b with
  | scalar => rfl
  | perBatch => exact (AddressSpace.check_eq_some_iff.mpr ⟨hl, rfl⟩).symm
  | perRowPerBatch => rfl

theorem length?_eq_none_iff (b : Broadcast) :
    b.length? p = none ↔ b = .perRowPerBatch ∧ AddressSpace.limit ≤ p.m * p.batch := by
  cases b with
  | scalar => simp [length?]
  | perBatch => simp [length?]
  | perRowPerBatch =>
    rw [eq_self, true_and]
    exact AddressSpace.check_eq_none_iff

end Broadcast

end FusedGemm
