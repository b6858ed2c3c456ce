import FusedGemm.Proofs.Gemm.Repeating
import FusedGemm.Proofs.Trial.Coverage

/-!
# Computing the reference again

A reference is meant to be computed once.  Computed any number of times, it still touches nothing
outside the storage, leaves the operands as they are and forgets what its `D` held before.  From the
second time on only the gradient changes (`Case.recompute?_eq_some`).
-/

namespace FusedGemm

namespace Case

/-- The case with its reference computed so many times, each after the check that everything it
touches is in the storage. -/
def recompute? (case : Case) : Nat → Option Case
  | 0 => some case
  | n + 1 => do
    let computed ← case.recompute? n
    let reference ← computed.fusedProduct.applyCovered? computed.reference
    return { computed with reference := reference }

/-- The case with other contents of the `D` of the reference. -/
def withReferenceCodes (case : Case) (codes : Array (Code case.reference.d.type)) : Case :=
  { case with reference := { case.reference with d := case.reference.d.withCodes codes } }

variable (case : Case)

/-- What the reference reads does not depend on what it has computed. -/
theorem iterate_withReference (n : Nat) : withReference^[n] case =
    { case with reference := case.fusedProduct.apply^[n] case.reference } := by
  induction n with
  | zero => rfl
  | succ n ih =>
    rw [Function.iterate_succ_apply', Function.iterate_succ_apply', ih]
    rfl

theorem recompute?_of_covered (h : case.fusedProduct.Covered case.reference) (n : Nat) :
    case.recompute? n = some (withReference^[n] case) := by
  induction n with
  | zero => rfl
  | succ n ih =>
    have hcovered := h.iterate_apply n
    rw [recompute?, ih, Function.iterate_succ_apply', iterate_withReference]
    show (do
      let reference ← case.fusedProduct.applyCovered? (case.fusedProduct.apply^[n] case.reference)
      return ({ case with reference := reference } : Case)) = _
    rw [FusedProduct.applyCovered?, if_pos hcovered]
    rfl

theorem withReference_withReferenceCodes (h : case.reference.d.Compact)
    {codes : Array (Code case.reference.d.type)}
    (hsize : codes.size = case.reference.d.codes.size) :
    (case.withReferenceCodes codes).withReference = case.withReference :=
  congrArg (fun reference => { case with reference := reference })
    (case.fusedProduct.apply_withCodes h hsize)

end Case

namespace Materialized

variable {config : Config} {p : Problem} {x y : Float} {before placed : Device} {case : Case}

theorem compact_reference (h : Materialized config p x y before case placed) :
    case.reference.d.Compact := by
  have hd : case.reference.get? .d = some case.reference.d := rfl
  obtain ⟨staged, hs, halike⟩ := h.exists_output_of_reference hd
  exact (h.output hs).1.of_alike halike

/-- The gradient of the reference starts from zeros, one for each row. -/
theorem reference_biasGradient (h : Materialized config p x y before case placed) {t : Tensor}
    (ht : case.reference.biasGradient = some t) :
    ∃ name, t = .zeros name config.typeBias (.vector p.m) := by
  rw [h.reference_eq] at ht
  obtain ⟨staged, hs, rfl⟩ := Option.map_eq_some_iff.mp ht
  rw [h.biasGradient hs]
  exact ⟨_, rfl⟩

end Materialized

/-- **Computing the reference again.**  Nothing but the reference changes, whatever its `D` held
before.  After the first time only the gradient does, to each element of which the same sum is added
each time, and rounded, from zero on. -/
theorem Case.recompute?_eq_some {config : Config} {p : Problem} {x y : Float}
    {device placed : Device} {case : Case} (hd : device.Sound)
    (hset : Case.setUp config p x y device = (.ok case, placed)) {n : Nat} (hn : 1 ≤ n) :
    let once := case.withReference
    let many := Case.withReference^[n] case
    case.recompute? n = some many ∧
      many = { case with reference := many.reference } ∧
      (∀ codes, codes.size = case.reference.d.codes.size →
        (case.withReferenceCodes codes).recompute? n = some many) ∧
      many.reference = { once.reference with biasGradient := many.reference.biasGradient } ∧
      ∀ t ∈ many.reference.biasGradient, t.codes.size = p.m ∧ ∀ row < p.m,
        t.read ⟨row, 0, 0⟩ = (fun z => t.type.quantize
          (z + case.fusedProduct.rowGradient p.outputExtent row))^[n] .zero := by
  have h := materialized_of_setUp hd hset
  have hshaped := h.shaped
  intro once many
  have hmany : many =
      { case with reference := case.fusedProduct.apply^[n] case.reference } :=
    case.iterate_withReference n
  have hreference : many.reference = { once.reference with
      biasGradient := case.reference.biasGradient.map
        (case.fusedProduct.addGradients p.outputExtent)^[n] } := by
    obtain ⟨k, rfl⟩ : ∃ k, n = k + 1 := ⟨n - 1, by omega⟩
    rw [hmany]
    show case.fusedProduct.apply^[k + 1] case.reference = _
    rw [case.fusedProduct.iterate_apply_succ, hshaped.extent_d]
    rfl
  refine ⟨case.recompute?_of_covered hshaped.covered n, ?_, fun codes hsize => ?_, ?_,
    fun t ht => ?_⟩
  · rw [hmany]
  · have hcovered : (case.withReferenceCodes codes).fusedProduct.Covered
        (case.withReferenceCodes codes).reference := hshaped.covered.withCodes hsize
    obtain ⟨k, rfl⟩ : ∃ k, n = k + 1 := ⟨n - 1, by omega⟩
    rw [Case.recompute?_of_covered _ hcovered, Function.iterate_succ_apply,
      case.withReference_withReferenceCodes h.compact_reference hsize]
    rfl
  · rw [hreference]
  · rw [hreference] at ht
    obtain ⟨start, hstart, rfl⟩ := Option.map_eq_some_iff.mp ht
    obtain ⟨name, rfl⟩ := h.reference_biasGradient hstart
    have halike := case.fusedProduct.alike_iterate_addGradients p.outputExtent
      (.zeros name config.typeBias (.vector p.m)) n
    refine ⟨?_, fun row hrow => ?_⟩
    · rw [halike.size_eq, Tensor.size_zeros, Layout.span_vector]
    · rw [halike.type_eq]
      exact case.fusedProduct.read_iterate_addGradients_zeros hrow name config.typeBias n

/-- A backward pass with a gradient. -/
def backpropagation : Config where
  fusion := { biasGradient := true, auxIn := true, activation := .relu }

/-- A column by a row. -/
def outerProduct : Problem := ⟨2, 2, 1, 1, Nat.one_pos⟩

theorem Case.recompute?_eq_some_backpropagation : ({} : Device).Sound ∧
    ∃ case placed many t, Case.setUp backpropagation outerProduct 1 0 {} = (.ok case, placed) ∧
      case.recompute? 3 = some many ∧ many.reference.d = case.withReference.reference.d ∧
      many.reference.biasGradient = some t ∧
      t.read ⟨1, 0, 0⟩ = (fun z => t.type.quantize
        (z + case.fusedProduct.rowGradient outerProduct.outputExtent 1))^[3] .zero := by
  have hd : ({} : Device).Sound := Device.sound_empty none
  obtain ⟨case, placed, hset⟩ : ∃ case placed,
      Case.setUp backpropagation outerProduct 1 0 {} = (.ok case, placed) := ⟨_, _, rfl⟩
  obtain ⟨hmany, -, -, hreference, hgradient⟩ :=
    Case.recompute?_eq_some (n := 3) hd hset (by decide)
  obtain ⟨t, ht⟩ : ∃ t, (Case.withReference^[3] case).reference.biasGradient = some t := by
    cases hset
    exact ⟨_, rfl⟩
  have hproduct : (Case.withReference^[3] case).reference.d = case.withReference.reference.d := by
    rw [hreference]
  exact ⟨hd, case, placed, _, t, hset, hmany, hproduct, ht, (hgradient t ht).2 1 (by decide)⟩

end FusedGemm
