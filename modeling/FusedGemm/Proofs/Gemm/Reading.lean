import FusedGemm.Gemm.Emulation
import FusedGemm.Proofs.Config.Validity
import FusedGemm.Proofs.Device.Accounting

/-!
# What a launch reads

The emulated kernel reads the operands of its launch one after the other.  Whether an operand can be
read depends on the device alone (`Device.CanRead`), not on what has been read before, and so a
launch is read if and only if all tensors of `Launch.reads` can be
(`Device.exists_loadProduct_iff`).
-/

namespace FusedGemm

/-! ### Steps that succeed -/

section Steps
variable {ε α β : Type} {x : Except ε α}

/-- Two steps succeed if both do, where the second one succeeds whatever the first one gives. -/
theorem exists_bind_iff {f : α → Except ε β} {P : Prop} (h : ∀ a, (∃ b, f a = .ok b) ↔ P) :
    (∃ b, x >>= f = .ok b) ↔ (∃ a, x = .ok a) ∧ P := by
  cases x with
  | error e =>
    constructor
    · rintro ⟨b, hb⟩
      cases hb
    · rintro ⟨⟨a, ha⟩, -⟩
      cases ha
  | ok a => exact (h a).trans ⟨fun hP => ⟨⟨a, rfl⟩, hP⟩, And.right⟩

theorem exists_pure_iff (b : β) : (∃ b', (pure b : Except ε β) = .ok b') ↔ True :=
  iff_of_true ⟨b, rfl⟩ trivial

theorem exists_map_iff (f : α → β) : (∃ b, f <$> x = .ok b) ↔ ∃ a, x = .ok a := by
  cases x with
  | error e =>
    constructor
    · rintro ⟨b, hb⟩
      cases hb
    · rintro ⟨a, ha⟩
      cases ha
  | ok a => exact iff_of_true ⟨f a, rfl⟩ ⟨a, rfl⟩

/-- All scales succeed if each does. -/
theorem Scales.exists_mapM_iff {f : α → Except ε β} {s : Scales α} :
    (∃ s', s.mapM f = .ok s') ↔ ∀ x ∈ s.toList, ∃ y, f x = .ok y := by
  obtain ⟨a, b, c, d, aux⟩ := s
  have hlist : (∀ x ∈ (⟨a, b, c, d, aux⟩ : Scales α).toList, ∃ y, f x = .ok y) ↔
      (∃ y, f a = .ok y) ∧ (∃ y, f b = .ok y) ∧ (∃ y, f c = .ok y) ∧ (∃ y, f d = .ok y) ∧
        ∀ x ∈ aux, ∃ y, f x = .ok y := by
    simp [toList]
  rw [hlist]
  refine exists_bind_iff fun a' => exists_bind_iff fun b' => exists_bind_iff fun c' =>
    exists_bind_iff fun d' => ?_
  cases aux with
  | none => exact iff_of_true ⟨⟨a', b', c', d', none⟩, rfl⟩ (by simp)
  | some x =>
    refine (exists_bind_iff fun y => exists_pure_iff _).trans ?_
    simp

end Steps

namespace Device

variable {device : Device} {arg : TensorArgument}

/-! ### Reading one operand -/

/-- What there is to read at an argument is an allocation of the size of its layout. -/
def CanRead (device : Device) (arg : TensorArgument) : Prop :=
  0 < arg.layout.extent.count → arg.pointer ≠ .null →
    ∃ bytes, device.contents? arg.pointer = some bytes ∧
      bytes.length = arg.layout.span * arg.type.size

theorem exists_read_iff {p : Pointer} {length : Nat} :
    (∃ bytes, device.read p length = .ok bytes) ↔
      ∃ bytes, device.contents? p = some bytes ∧ bytes.length = length := by
  unfold read
  cases device.contents? p with
  | none => simp
  | some bytes => by_cases h : bytes.length = length <;> simp [h]

theorem exists_load_iff (name : String) :
    (∃ t, device.load name arg = .ok t) ↔ device.CanRead arg := by
  have hsize : (Tensor.zeros name arg.type arg.layout).byteSize =
      arg.layout.span * arg.type.size := by
    unfold Tensor.byteSize
    rw [Tensor.size_zeros]
    rfl
  have hcond : (0 < (Tensor.zeros name arg.type arg.layout).count && !arg.pointer.isNull) = true ↔
      0 < arg.layout.extent.count ∧ arg.pointer ≠ .null := by
    rw [Bool.and_eq_true, decide_eq_true_iff, Bool.not_eq_true', ← Bool.not_eq_true,
      Pointer.isNull_iff]
    rfl
  unfold load CanRead
  dsimp only
  rw [hsize]
  by_cases h : 0 < arg.layout.extent.count ∧ arg.pointer ≠ .null
  · rw [if_pos (hcond.mpr h), exists_map_iff, exists_read_iff]
    exact ⟨fun hread _ _ => hread, fun hread => hread h.1 h.2⟩
  · rw [if_neg (hcond.not.mpr h)]
    exact iff_of_true ⟨_, rfl⟩ fun hcount hpointer => absurd ⟨hcount, hpointer⟩ h

theorem exists_loadOption_iff {name : String} {x : Option TensorArgument} :
    (∃ y, device.loadOption name x = .ok y) ↔ ∀ arg ∈ x, device.CanRead arg := by
  cases x with
  | none => exact iff_of_true ⟨none, rfl⟩ (by simp)
  | some arg =>
    refine (exists_map_iff some).trans ((exists_load_iff name).trans ?_)
    simp

theorem exists_loadScalar_iff {arg : ScalarArgument} :
    (∃ source, device.loadScalar arg = .ok source) ↔ ∀ v ∈ arg.vector, device.CanRead v := by
  unfold loadScalar
  cases arg.vector with
  | none => exact iff_of_true ⟨_, rfl⟩ (by simp)
  | some v =>
    refine (exists_map_iff _).trans ((exists_load_iff "scalar").trans ?_)
    simp

theorem exists_loadFactor_iff {arg : ScalarArgument} :
    (∃ x, device.loadFactor arg = .ok x) ↔ ∀ v ∈ arg.vector, device.CanRead v := by
  unfold loadFactor
  cases arg.vector with
  | none => exact iff_of_true ⟨_, rfl⟩ (by simp)
  | some v =>
    refine (exists_bind_iff fun t => exists_pure_iff _).trans ?_
    rw [exists_load_iff]
    simp

theorem exists_loadFactors_iff {scale : Option (Scales ScalarArgument)} :
    (∃ factors, device.loadFactors scale = .ok factors) ↔
      ∀ s ∈ scale, ∀ arg ∈ s.toList, ∀ v ∈ arg.vector, device.CanRead v := by
  cases scale with
  | none => exact iff_of_true ⟨none, rfl⟩ (by simp)
  | some s =>
    refine (exists_bind_iff fun s' => exists_pure_iff _).trans ?_
    simp [Scales.exists_mapM_iff, exists_loadFactor_iff]

theorem exists_loadAbsMax_iff {stale : Bool} {x : Option TensorArgument} :
    (∃ y, device.loadAbsMax stale x = .ok y) ↔
      (stale = true → ∀ arg ∈ x, device.CanRead arg) := by
  cases x with
  | none => exact iff_of_true ⟨none, rfl⟩ (by simp)
  | some arg =>
    cases stale with
    | false => exact iff_of_true ⟨_, rfl⟩ (by simp)
    | true =>
      refine (exists_map_iff some).trans ((exists_load_iff "abs_max").trans ?_)
      simp

end Device

/-! ### Reading a launch -/

/-- The tensors that a launch reads, the running maxima only if they are kept. -/
def Launch.reads (launch : Launch) (stale : Bool) : List TensorArgument :=
  [launch.a, launch.b, launch.c] ++ launch.alpha.vector.toList ++ launch.beta.vector.toList ++
    ((launch.scale.map Scales.toList).getD []).filterMap ScalarArgument.vector ++
    launch.bias.toList ++ launch.outputs.biasGradient.toList ++ launch.auxIn.toList ++
    if stale then launch.outputs.absMaxD.toList ++ launch.outputs.absMaxAux.toList else []

/-- **A launch is read if and only if all of its tensors can be.** -/
theorem Device.exists_loadProduct_iff {device : Device} {stale : Bool} {launch : Launch} :
    (∃ loaded, device.loadProduct stale launch = .ok loaded) ↔
      ∀ arg ∈ launch.reads stale, device.CanRead arg := by
  have hsteps : (∃ loaded, device.loadProduct stale launch = .ok loaded) ↔ _ :=
    exists_bind_iff fun a => exists_bind_iff fun b => exists_bind_iff fun c =>
      exists_bind_iff fun alpha => exists_bind_iff fun beta => exists_bind_iff fun scale =>
      exists_bind_iff fun bias => exists_bind_iff fun gradient => exists_bind_iff fun auxIn =>
      exists_bind_iff fun absMaxD => exists_bind_iff fun absMaxAux => exists_pure_iff _
  rw [hsteps]
  simp only [exists_load_iff, exists_loadScalar_iff, exists_loadFactors_iff, exists_loadOption_iff,
    exists_loadAbsMax_iff]
  have hscale : (∀ s ∈ launch.scale, ∀ arg ∈ s.toList, ∀ v ∈ arg.vector, device.CanRead v) ↔
      ∀ v ∈ ((launch.scale.map Scales.toList).getD []).filterMap ScalarArgument.vector,
        device.CanRead v := by
    cases launch.scale with
    | none => simp
    | some s =>
      simp only [Option.mem_some_iff, forall_eq', Option.map_some, Option.getD_some,
        List.mem_filterMap, forall_exists_index, and_imp]
      exact ⟨fun h v arg harg hv => h arg harg v hv, fun h arg harg v hv => h v arg harg hv⟩
  rw [hscale]
  unfold Launch.reads
  cases stale <;> simp [or_imp, forall_and]

end FusedGemm
