import FusedGemm.Proofs.Trial.Footprint

/-!
# Views of the stored scalars

Alpha and beta store the numbers of a broadcast.  Of each of them a kernel sees all that are stored
and nothing else, also where it is their count that is not addressable (`Broadcast.view_stored`).
-/

namespace FusedGemm

/-- Alpha and beta have as many elements as the broadcast counts. -/
theorem Config.size_of_scalarTensor {config : Config} {p : Problem} {x : Float} {t : Tensor}
    {n : Nat} (hn : config.broadcast.length? p = some n)
    (ht : config.alphaTensor p x = .ok t ∨ config.betaTensor p x = .ok t) : t.codes.size = n := by
  have hcount : ∀ {k : Nat}, config.scalarCount p = .ok k → k = n := fun hk =>
    Option.some.inj ((length?_of_scalarCount hk).symm.trans hn)
  rcases ht with ht | ht
  · obtain ⟨k, hk, halike⟩ := alike_alphaTensor ht
    rw [Tensor.size_of_alike_vector halike, hcount hk]
  · obtain ⟨k, hk, halike⟩ := alike_betaTensor ht
    rw [Tensor.size_of_alike_vector halike, hcount hk]

/-- **A broadcast sees just the numbers that are stored.**  Their count is the span of the view, and
only for a number per row can it exceed the address space.  The offsets of the view over the output
are the positions of all numbers, computed without leaving the address space, and coordinates share
one if they agree in the modes that the broadcast depends on.  So of an alpha or a beta with such a
broadcast every element is read and nothing outside. -/
theorem Broadcast.view_stored (rowScale : Bool) (location : ScalarLocation)
    (vectorScale : VectorScale) {p : Problem} (hm : 1 ≤ p.m) (hn : 1 ≤ p.n)
    (hl : p.batch < AddressSpace.limit) :
    let b := select rowScale location vectorScale
    let view := b.layout p
    b.length? p = view.span? ∧
    (b.length? p = none ↔ b = .perRowPerBatch ∧ AddressSpace.limit ≤ p.m * p.batch) ∧
    ∀ s, b.length? p = some s →
      view.offset '' {c | c ∈ p.outputExtent} = Set.Iio s ∧
      (∀ c ∈ p.outputExtent, view.offset? c = some (view.offset c)) ∧
      (∀ c ∈ p.outputExtent, ∀ c' ∈ p.outputExtent,
        view.offset c = view.offset c' ↔ b.Agree c c') ∧
      ∀ (config : Config) (x : Float) (t : Tensor), config.broadcast = b →
        config.alphaTensor p x = .ok t ∨ config.betaTensor p x = .ok t →
        (∀ i < t.codes.size, ∃ c ∈ p.outputExtent, view.offset c = i) ∧
        ∀ c ∈ p.outputExtent, ({ t with layout := view } : Tensor).read? c =
          some (t.get (view.offset c)) := by
  intro b view
  have hspan : b.length? p = view.span? := by
    rw [length?_eq_check b hl, Layout.span?_eq_check, span_layout_eq_count hm hn]
  refine ⟨hspan, length?_eq_none_iff b, fun s hs => ?_⟩
  have hcount : b.count p = s := by
    rw [length?_eq_check b hl] at hs
    exact (AddressSpace.check_eq_some_iff.mp hs).2
  have himage : view.offset '' {c | c ∈ p.outputExtent} = Set.Iio s :=
    hcount ▸ image_offset_layout hm hn b
  refine ⟨himage, fun c hc => Layout.offset?_of_span?_eq_some (hspan ▸ hs) hc,
    fun c hc c' hc' => offset_layout_eq_iff b hc hc', fun config x t hb ht => ?_⟩
  have hsize : t.codes.size = s := Config.size_of_scalarTensor (hb ▸ hs) ht
  refine ⟨fun i hi => ?_, fun c hc => if_pos ?_⟩
  · have hmem : i ∈ view.offset '' {c | c ∈ p.outputExtent} := by
      rw [himage, ← hsize]
      exact hi
    exact hmem
  · have hmem : view.offset c ∈ view.offset '' {c | c ∈ p.outputExtent} :=
      Set.mem_image_of_mem _ hc
    rw [himage] at hmem
    rwa [← hsize] at hmem

/-- A number for each of two rows and two batches, and one that both columns share. -/
theorem Broadcast.view_stored_perRowPerBatch : 1 ≤ outerProducts.m ∧ 1 ≤ outerProducts.n ∧
    outerProducts.batch < AddressSpace.limit ∧
    let view := (select true .host .enabled).layout outerProducts
    view.span? = some 4 ∧ view.offset '' {c | c ∈ outerProducts.outputExtent} = Set.Iio 4 ∧
    view.offset ⟨1, 0, 1⟩ = view.offset ⟨1, 1, 1⟩ ∧
    ∃ t, Round.rowScaled.alphaTensor outerProducts 1 = .ok t ∧
      ∀ i < t.codes.size, ∃ c ∈ outerProducts.outputExtent, view.offset c = i := by
  have hm : 1 ≤ outerProducts.m := by decide
  have hn : 1 ≤ outerProducts.n := by decide
  have hl : outerProducts.batch < AddressSpace.limit := by decide
  obtain ⟨hspan, -, hstored⟩ := view_stored true .host .enabled hm hn hl
  obtain ⟨himage, -, hshare, htensor⟩ := hstored 4 rfl
  obtain ⟨t, ht⟩ : ∃ t, Round.rowScaled.alphaTensor outerProducts 1 = .ok t := ⟨_, rfl⟩
  exact ⟨hm, hn, hl, hspan.symm, himage, (hshare _ (by decide) _ (by decide)).mpr ⟨rfl, rfl⟩, t, ht,
    (htensor Round.rowScaled 1 t rfl (Or.inl ht)).1⟩

end FusedGemm
