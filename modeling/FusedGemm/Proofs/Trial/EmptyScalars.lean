import FusedGemm.Proofs.Gemm.Reading
import FusedGemm.Proofs.Trial.Coverage
import FusedGemm.Proofs.Trial.Stages

/-!
# Scalars without elements

The arguments of a launch pass an element of alpha, of beta and of every scale factor by value.
Scale factors have one.  Alpha and beta have none where there is one number for each row and the
problem has no rows: there the arguments of a case that has been set up cannot be made, and
everywhere else they can (`Materialized.exists_arguments`).  It is the only way for a round to
ask for a number that is not in its storage (`Round.run_outOfStorage`).
-/

namespace FusedGemm

/-! ### Names -/

theorem Tensor.name_writeAll (t : Tensor) (cs : List Coord) (f : Coord → ComplexFloat) :
    (t.writeAll cs f).name = t.name := by
  unfold writeAll
  induction cs generalizing t with
  | nil => rfl
  | cons c cs ih => exact ih (t.write c (f c))

theorem Tensor.name_fillFrom (t : Tensor) (fill : Fill) (seed : UInt64) :
    (t.fillFrom fill seed).name = t.name := by
  cases fill with
  | identity => exact name_writeAll _ _ _
  | uniform => rfl
  | gaussian => rfl
  | sequential => rfl
  | ones => rfl

namespace Config

variable {config : Config} {p : Problem} {t : Tensor} {x : Float}

theorem name_alphaTensor (h : config.alphaTensor p x = .ok t) : t.name = "alpha" := by
  obtain ⟨n, -, ht⟩ := exists_of_bind_eq_ok h
  dsimp only at ht
  split_ifs at ht
  · cases ht
    exact Tensor.name_fillFrom _ _ _
  · cases ht
    rfl

/-- Alpha and beta differ from row to row, and there are no rows. -/
def Rowless (config : Config) (p : Problem) : Prop :=
  config.broadcast = .perRowPerBatch ∧ p.m = 0

instance (config : Config) (p : Problem) : Decidable (config.Rowless p) :=
  inferInstanceAs (Decidable (_ ∧ _))

/-- Without rows there is nothing to store where each row has a number of its own. -/
theorem scalarCount_eq_zero_iff {n : Nat} (h : config.scalarCount p = .ok n) :
    n = 0 ↔ config.Rowless p := by
  have hlength := length?_of_scalarCount h
  have hbatch := p.batch_pos
  unfold Rowless
  cases hb : config.broadcast with
  | scalar =>
    rw [hb] at hlength
    cases hlength
    simp
  | perBatch =>
    rw [hb] at hlength
    cases hlength
    simp only [reduceCtorEq, false_and, iff_false]
    omega
  | perRowPerBatch =>
    rw [hb] at hlength
    obtain ⟨-, rfl⟩ := AddressSpace.mul?_eq_some_iff.mp hlength
    rw [Nat.mul_eq_zero]
    simp only [true_and, or_iff_left_iff_imp]
    omega

end Config

/-! ### Arguments -/

namespace Case

variable {staged : Staged}

/-- A scalar with an element can be passed. -/
theorem exists_scalarArgument (view : Layout) (h : 0 < staged.host.codes.size) :
    ∃ arg, scalarArgument view staged = .ok arg := by
  unfold scalarArgument Tensor.read? Tensor.get?
  rw [Layout.offset_origin, if_pos h]
  exact ⟨_, rfl⟩

theorem scalarArgument_of_empty (view : Layout) (h : staged.host.codes.size = 0) :
    scalarArgument view staged = .error (.outOfStorage staged.host.name) := by
  unfold scalarArgument Tensor.read? Tensor.get?
  rw [Layout.offset_origin, if_neg (by omega)]

end Case

namespace Materialized

variable {config : Config} {p : Problem} {x y : Float} {before placed : Device} {case : Case}

theorem name_alpha (h : Materialized config p x y before case placed) :
    case.operands.alpha.host.name = "alpha" := by
  obtain ⟨placement, hok, hhost, -⟩ := h.meets.alpha
  obtain ⟨t, ht, rfl⟩ := exists_of_placement_eq_ok hok
  rw [hhost]
  exact Config.name_alphaTensor ht

/-- Alpha and beta have as many elements as the broadcast says. -/
theorem size_scalars (h : Materialized config p x y before case placed) :
    ∃ n, config.scalarCount p = .ok n ∧ case.operands.alpha.host.codes.size = n ∧
      case.operands.beta.host.codes.size = n := by
  obtain ⟨n, hn, halike, -⟩ := h.alpha
  obtain ⟨n', hn', halike', -⟩ := h.beta
  obtain rfl : n = n' := Except.ok.inj (hn.symm.trans hn')
  exact ⟨n, hn, Tensor.size_of_alike_vector halike, Tensor.size_of_alike_vector halike'⟩

/-- Alpha is the first scalar to be passed. -/
theorem arguments_of_rowless (h : Materialized config p x y before case placed)
    (hrows : config.Rowless p) : case.arguments = .error (.outOfStorage "alpha") := by
  obtain ⟨n, hn, halpha, -⟩ := h.size_scalars
  have hempty : case.operands.alpha.host.codes.size = 0 := by
    rw [halpha]
    exact (Config.scalarCount_eq_zero_iff hn).mpr hrows
  unfold Case.arguments
  rw [Case.scalarArgument_of_empty _ hempty, h.name_alpha]
  rfl

/-- **The arguments can be made wherever alpha and beta have an element.** -/
theorem exists_arguments (h : Materialized config p x y before case placed)
    (hrows : ¬ config.Rowless p) : ∃ launch, case.arguments = .ok launch := by
  obtain ⟨n, hn, halpha, hbeta⟩ := h.size_scalars
  have hpos : 0 < n := Nat.pos_of_ne_zero fun h0 =>
    hrows ((Config.scalarCount_eq_zero_iff hn).mp h0)
  obtain ⟨alpha, ha⟩ := Case.exists_scalarArgument case.scalarView (halpha ▸ hpos)
  obtain ⟨beta, hb⟩ := Case.exists_scalarArgument case.scalarView (hbeta ▸ hpos)
  have hscale : ∃ scale, case.operands.scale.mapM
      (Scales.mapM (Case.scalarArgument case.factorView)) = .ok scale := by
    cases hs : case.operands.scale with
    | none => exact ⟨none, rfl⟩
    | some s =>
      obtain ⟨s', hs'⟩ := Scales.exists_mapM_iff.mpr fun staged hmem =>
        Case.exists_scalarArgument case.factorView (by rw [(h.factor hs hmem).2]; exact one_pos)
      refine ⟨some s', ?_⟩
      rw [Option.mapM_some, hs']
      rfl
  obtain ⟨scale, hscale⟩ := hscale
  unfold Case.arguments
  rw [ha, hb, hscale]
  exact ⟨_, rfl⟩

end Materialized

/-! ### Rounds -/

namespace Round

variable {σ : Type} {config : Config} {r : Round} {device placed : Device} {case : Case}

/-- A launch can fail for reasons of the device only. -/
theorem exists_device_of_attempt (kernel : Kernel σ) (launch : Launch) (s : σ) {e : Failure}
    (h : (attempt kernel case launch s device).1 = .error e) : ∃ e', e = .device e' := by
  have hfailure : ∀ {e'}, deviceFailure e' = .error e → ∃ e', e = .device e' := by
    intro e' he
    unfold deviceFailure at he
    split_ifs at he
    cases he
    exact ⟨e', rfl⟩
  have hcollect : ∀ {ran : Device}, (collect case ran).1 = .error e → ∃ e', e = .device e' := by
    intro ran he
    cases hpending : ran.pending with
    | some e' =>
      rw [collect_of_pending hpending] at he
      exact hfailure he
    | none =>
      rw [collect_of_not_pending hpending] at he
      rcases hpull : case.pullOutputs ran.synchronize.2 with ⟨_ | e', pulled⟩
      · rw [hpull] at he
        cases he
      · rw [hpull] at he
        exact hfailure he
  cases hsupports : (kernel.supports s launch).isSuccess with
  | false =>
    rw [attempt_of_unsupported hsupports] at h
    cases h
  | true =>
    cases hb : Buffer.allocate (kernel.scratchSize s launch) device with
    | error e' =>
      rw [attempt_of_allocate_error hsupports hb] at h
      cases h
      exact ⟨e', rfl⟩
    | ok b =>
      obtain ⟨buffer, scratch⟩ := b
      rw [attempt_of_allocate_ok hsupports hb, launchWith_eq] at h
      dsimp only at h
      split_ifs at h
      exact hcollect h

/-- **The numbers that a trial asks for are in their storage, but for an alpha without rows.**  The
evaluation of the reference never leaves the storage of the case, nor does that of a kernel the
storage of what it loads.  The arguments of the launch can be made, and no round of any kernel asks
for a missing number, unless alpha and beta have a number for each row and there are no rows; then
every round does. -/
theorem run_outOfStorage (hd : device.Sound)
    (hset : Case.setUp config r.problem r.alpha r.beta device = (.ok case, placed)) :
    case.fusedProduct.Covered case.reference ∧
    (∀ launch (source : Device) stale loaded, case.arguments = .ok launch →
      source.loadProduct stale launch = .ok loaded →
      loaded.product.Covered loaded.outputs) ∧
    ((∃ launch, case.arguments = .ok launch) ↔
      ¬ (config.broadcast = .perRowPerBatch ∧ r.problem.m = 0)) ∧
    ∀ (kernel : Kernel σ) (s : σ) (name : String),
      (run kernel config r s device).1 = .error (.outOfStorage name) ↔
        config.broadcast = .perRowPerBatch ∧ r.problem.m = 0 ∧ name = "alpha" := by
  have hm := materialized_of_setUp hd hset
  refine ⟨hm.shaped.covered, fun launch source stale loaded harg hload =>
    (hm.shaped_load harg hload).covered, ?_, fun kernel s name => ?_⟩
  · constructor
    · rintro ⟨launch, harg⟩ hrows
      rw [hm.arguments_of_rowless hrows] at harg
      cases harg
    · exact hm.exists_arguments
  · rw [run_of_setUp_ok hset]
    by_cases hrows : config.Rowless r.problem
    · rw [runCase_of_arguments_error (hm.arguments_of_rowless hrows)]
      simp only [Except.error.injEq, Failure.outOfStorage.injEq, hrows.1, hrows.2, true_and]
      exact eq_comm
    · obtain ⟨launch, harg⟩ := hm.exists_arguments hrows
      rw [runCase_of_arguments_ok harg]
      constructor
      · intro h
        obtain ⟨e, he⟩ := exists_device_of_attempt kernel launch s h
        cases he
      · rintro ⟨hb, hzero, -⟩
        exact absurd ⟨hb, hzero⟩ hrows

/-- Sums of nothing. -/
def innerless : Round := ⟨⟨2, 1, 0, 1, by decide⟩, 1, 0⟩

theorem run_outOfStorage_innerless : ({} : Device).Sound ∧
    ∃ case placed launch, Case.setUp {} innerless.problem innerless.alpha innerless.beta {} =
        (.ok case, placed) ∧ case.arguments = .ok launch ∧
      case.fusedProduct.Covered case.reference ∧
      ∀ name, (run emulation {} innerless {} {}).1 ≠ .error (.outOfStorage name) := by
  have hd : ({} : Device).Sound := Device.sound_empty none
  obtain ⟨case, placed, hset⟩ : ∃ case placed, Case.setUp {} innerless.problem innerless.alpha
      innerless.beta {} = (.ok case, placed) := ⟨_, _, rfl⟩
  have hrows : ¬ (({} : Config).broadcast = .perRowPerBatch ∧ innerless.problem.m = 0) := by decide
  obtain ⟨hcovered, -, harguments, hrun⟩ := run_outOfStorage hd hset
  obtain ⟨launch, harg⟩ := harguments.mpr hrows
  refine ⟨hd, case, placed, launch, hset, harg, hcovered, fun name herror => ?_⟩
  obtain ⟨hbroadcast, hzero, -⟩ := (hrun emulation {} name).mp herror
  exact hrows ⟨hbroadcast, hzero⟩

/-- An alpha and a beta for each row. -/
def rowScaled : Config where
  fusion := { rowScale := true }
  vectorScale := .enabled

/-- A problem without rows. -/
def rowless : Round := ⟨⟨0, 3, 2, 1, by decide⟩, 1, 1⟩

theorem exists_setUp_rowless :
    ∃ case placed, Case.setUp rowScaled rowless.problem rowless.alpha rowless.beta {} =
      (.ok case, placed) := by
  simp only [Case.setUp, Case.materialize, Config.acquire, Config.plan, Config.betaTensor]
  -- whether beta is zero decides what it is filled with, not whether it can be placed
  generalize (rowless.beta == 0.0) = zero
  cases zero with
  | false => exact ⟨_, _, rfl⟩
  | true => exact ⟨_, _, rfl⟩

/-- A case that is set up and has no arguments. -/
theorem arguments_rowless : rowScaled.Valid ∧
    ∃ case placed, Case.setUp rowScaled rowless.problem rowless.alpha rowless.beta {} =
        (.ok case, placed) ∧ (∀ launch, case.arguments ≠ .ok launch) ∧
      (run emulation rowScaled rowless {} {}).1 = .error (.outOfStorage "alpha") := by
  obtain ⟨case, placed, hset⟩ := exists_setUp_rowless
  have hm := materialized_of_setUp (Device.sound_empty none) hset
  have harg : case.arguments = .error (.outOfStorage "alpha") := hm.arguments_of_rowless (by decide)
  refine ⟨by decide, case, placed, hset, fun launch hok => ?_, ?_⟩
  · rw [harg] at hok
    cases hok
  · rw [run_of_setUp_ok hset, runCase_of_arguments_error harg]

end Round

end FusedGemm
