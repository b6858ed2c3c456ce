import FusedGemm.Proofs.Check.Exactness

/-!
# What a comparison locates

Coordinates are listed in batch, row, column order (`Extent.pairwise_coords`), while elements are
stored in the order of the layout.  Where the layout gives every element one coordinate
(`Tensor.Compact.perm_offsets`), the exact comparison counts the storage indices with different codes
and names the coordinate of one of them that comes before all others
(`Comparison.exact_mismatches_locates`).
-/

namespace FusedGemm

/-! ### The order of coordinates -/

namespace Coord

/-- The coordinate comes first in batch, row, column order. -/
def Before (c c' : Coord) : Prop :=
  c.batch < c'.batch ∨
    (c.batch = c'.batch ∧ (c.row < c'.row ∨ (c.row = c'.row ∧ c.col < c'.col)))

theorem Before.asymm {c c' : Coord} (h : c.Before c') : ¬ c'.Before c := by
  unfold Before at *
  omega

theorem before_trichotomy (c c' : Coord) : c.Before c' ∨ c = c' ∨ c'.Before c := by
  rcases c with ⟨row, col, batch⟩
  rcases c' with ⟨row', col', batch'⟩
  simp only [Before, mk.injEq]
  omega

end Coord

namespace Extent

variable {e : Extent} {c c' : Coord}

theorem rank_lt_of_before (h : c ∈ e) (h' : c' ∈ e) (hbefore : c.Before c') :
    e.rank c < e.rank c' := by
  obtain ⟨hrow, hcol, -⟩ := h
  obtain ⟨hrow', hcol', -⟩ := h'
  have hlines : ∀ {m n : Nat}, m < n → m * e.cols + c.col < n * e.cols + c'.col := by
    intro m n hmn
    have hle := Nat.mul_le_mul_right e.cols (show m + 1 ≤ n from hmn)
    rw [Nat.add_mul, Nat.one_mul] at hle
    omega
  unfold rank
  rcases hbefore with hbatch | ⟨hbatch, hlt | ⟨heq, hlt⟩⟩
  · have hle := Nat.mul_le_mul_right e.rows (show c.batch + 1 ≤ c'.batch from hbatch)
    rw [Nat.add_mul, Nat.one_mul] at hle
    exact hlines (by omega)
  · rw [hbatch]
    exact hlines (by omega)
  · rw [hbatch, heq]
    omega

/-- Coordinates are listed in batch, row, column order. -/
theorem pairwise_coords (e : Extent) : e.coords.Pairwise Coord.Before := by
  unfold coords
  rw [List.pairwise_map, List.pairwise_iff_getElem]
  intro i j hi hj hij
  rw [List.getElem_range, List.getElem_range]
  rw [List.length_range] at hi hj
  rcases Coord.before_trichotomy (e.coord i) (e.coord j) with h | h | h
  · exact h
  · have hrank := congrArg e.rank h
    rw [rank_coord, rank_coord] at hrank
    omega
  · have hrank := rank_lt_of_before (coord_mem hj) (coord_mem hi) h
    rw [rank_coord, rank_coord] at hrank
    omega

theorem nodup_coords (e : Extent) : e.coords.Nodup := by
  refine e.pairwise_coords.imp ?_
  rintro c _ h rfl
  exact h.asymm h

end Extent

/-- Of a list in order the first entry is the least one. -/
theorem head?_eq_some_iff_of_before {cs : List Coord} (h : cs.Pairwise Coord.Before) {c : Coord} :
    cs.head? = some c ↔ c ∈ cs ∧ ∀ c' ∈ cs, c' = c ∨ c.Before c' := by
  cases cs with
  | nil => simp
  | cons first rest =>
    obtain ⟨hfirst, -⟩ := List.pairwise_cons.mp h
    rw [List.head?_cons, Option.some.injEq]
    constructor
    · rintro rfl
      refine ⟨List.mem_cons_self, fun c' hc' => ?_⟩
      rcases List.mem_cons.mp hc' with rfl | hc'
      · exact Or.inl rfl
      · exact Or.inr (hfirst c' hc')
    · rintro ⟨hc, hleast⟩
      rcases List.mem_cons.mp hc with rfl | hc
      · rfl
      · rcases hleast first List.mem_cons_self with heq | hbefore
        · exact heq
        · exact absurd (hfirst c hc) hbefore.asymm

/-! ### Elements and coordinates -/

namespace Tensor

variable {t u : Tensor}

/-- The coordinates address all storage indices, each of them once. -/
theorem Compact.perm_offsets (h : t.Compact) (hs : t.layout.Separates) :
    (t.extent.coords.map t.layout.offset).Perm (List.range t.codes.size) := by
  have hnodup : (t.extent.coords.map t.layout.offset).Nodup := by
    refine t.extent.nodup_coords.map_on fun c hc c' hc' heq => ?_
    exact hs c (Extent.mem_coords.mp hc) c' (Extent.mem_coords.mp hc') heq
  refine (List.perm_ext_iff_of_nodup hnodup List.nodup_range).mpr fun i => ?_
  rw [List.mem_map, List.mem_range, h.size_eq]
  constructor
  · rintro ⟨c, hc, rfl⟩
    exact Layout.offset_lt_span (Extent.mem_coords.mp hc)
  · intro hi
    obtain ⟨c, hc, hoffset⟩ := h.dense i hi
    exact ⟨c, Extent.mem_coords.mpr hc, hoffset⟩

/-- The storage indices at which the codes of two tensors differ. -/
def differingIndices (t u : Tensor) : List Nat :=
  (List.range t.codes.size).filter fun i => !t.sameCode i u i

end Tensor

/-! ### What is found -/

/-- What is found about a tensor are the elements at the given storage indices: their number, and
the coordinate of one of them that comes before all others. -/
structure Mismatches.Locates (found : Mismatches) (t : Tensor) (indices : List Nat) : Prop where
  count_eq : found.count = indices.length
  first_eq_none_iff : found.first = none ↔ found.count = 0
  first_eq_some_iff : ∀ c, found.first = some c ↔
    (c ∈ t.extent ∧ t.layout.offset c ∈ indices) ∧
      ∀ c' ∈ t.extent, t.layout.offset c' ∈ indices → c' = c ∨ c.Before c'

namespace Comparison

variable {t u : Tensor}

/-- **The exact comparison locates the elements whose codes differ.** -/
theorem exact_mismatches_locates (ht : t.Compact) (hs : t.layout.Separates) (h : t.Alike u) :
    (exact.mismatches t u).Locates t (t.differingIndices u) := by
  have hfilter : exact.differing t u = t.extent.coords.filter fun c =>
      !t.sameCode (t.layout.offset c) u (t.layout.offset c) := by
    simp only [differing, sameAt, tolerates, h.layout_eq, Bool.or_false]
  have hmem : ∀ c, c ∈ t.extent.coords.filter (fun c =>
      !t.sameCode (t.layout.offset c) u (t.layout.offset c)) ↔
      c ∈ t.extent ∧ t.layout.offset c ∈ t.differingIndices u := by
    intro c
    rw [List.mem_filter, Extent.mem_coords]
    refine and_congr_right fun hc => ?_
    have hlt : t.layout.offset c < t.codes.size := ht.size_eq ▸ Layout.offset_lt_span hc
    simp [Tensor.differingIndices, hlt]
  have hfound : exact.mismatches t u =
      ⟨(exact.differing t u).length, (exact.differing t u).head?⟩ := by
    rw [mismatches, if_pos ⟨h.type_eq.symm, h.extent_eq.symm⟩]
  rw [hfound, hfilter]
  refine ⟨?_, ?_, fun c => ?_⟩
  · -- the offsets of the coordinates are the storage indices in another order
    have hperm := (ht.perm_offsets hs).filter fun i => !t.sameCode i u i
    rw [List.filter_map] at hperm
    have hlength := hperm.length_eq
    rwa [List.length_map] at hlength
  · rw [List.head?_eq_none_iff, List.length_eq_zero_iff]
  · rw [head?_eq_some_iff_of_before (t.extent.pairwise_coords.filter _)]
    simp only [hmem, and_imp]

end Comparison

end FusedGemm
