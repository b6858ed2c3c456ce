import FusedGemm.Proofs.Trial.Placement
import FusedGemm.Proofs.Trial.Stages

/-!
# Where failed comparisons are dumped

The directory for dumps decides whether a failed comparison has a dump and nothing else: a case of
another directory has the same operands (`Case.setUp_dumpingTo`), and rounds have the same outcomes
up to their dumps and leave the same devices (`Round.runAll_dumpingTo`).
-/

namespace FusedGemm

/-- The outcome without its dump. -/
def Outcome.withoutDump : Outcome → Outcome
  | .mismatch report _ => .mismatch report none
  | outcome => outcome

/-- The configuration with another directory for dumps. -/
def Config.dumpingTo (config : Config) (directory : Option String) : Config :=
  { config with dumpDirectory := directory }

/-- The case with another directory for dumps. -/
def Case.dumpingTo (case : Case) (directory : Option String) : Case :=
  { case with config := case.config.dumpingTo directory }

variable (config : Config) (directory : Option String)

/-! ### Cases -/

theorem Config.acquire_dumpingTo (p : Problem) (x y : Float) :
    (config.dumpingTo directory).acquire p x y =
      (fun case => case.dumpingTo directory) <$> config.acquire p x y := by
  simp only [acquire, map_bind, map_pure]
  rfl

theorem Acquire.run_map {α β : Type} (f : α → β) (action : Acquire α) (device : Device) :
    (f <$> action).run device = Prod.map (Except.map f) id (action.run device) := by
  have hmap : (f <$> action) ⟨device, []⟩ = Prod.map (Except.map f) id (action ⟨device, []⟩) := by
    rw [map_eq_pure_bind, Acquire.bind_apply]
    rcases action ⟨device, []⟩ with ⟨_ | _, lease⟩ <;> rfl
  unfold run ExceptT.run
  rw [hmap]
  rcases action ⟨device, []⟩ with ⟨_ | _, lease⟩ <;> rfl

/-- **A case of another directory has the same operands.** -/
theorem Case.setUp_dumpingTo (p : Problem) (x y : Float) (device : Device) :
    setUp (config.dumpingTo directory) p x y device =
      Prod.map (Except.map fun case => case.dumpingTo directory) id (setUp config p x y device) := by
  have hfault : (config.dumpingTo directory).fault? = config.fault? := rfl
  unfold setUp Config.validate
  rw [hfault]
  cases config.fault? with
  | some e => rfl
  | none =>
    show ((config.dumpingTo directory).acquire p x y).run device = _
    rw [Config.acquire_dumpingTo, Acquire.run_map]
    rfl

/-! ### Rounds -/

namespace Round

variable {σ : Type} (kernel : Kernel σ)

theorem outcome_dumpingTo (case : Case) :
    (case.dumpingTo directory).outcome.withoutDump = case.outcome.withoutDump := by
  have hreport : (case.dumpingTo directory).withReference.compare = case.withReference.compare :=
    rfl
  unfold Case.outcome Case.verify
  dsimp only
  rw [hreport]
  split_ifs <;> rfl

theorem collect_dumpingTo (case : Case) (device : Device) :
    Prod.map (Except.map Outcome.withoutDump) id (collect (case.dumpingTo directory) device) =
      Prod.map (Except.map Outcome.withoutDump) id (collect case device) := by
  unfold collect
  rcases device.synchronize with ⟨_ | e, device'⟩
  · have hpull : (case.dumpingTo directory).pullOutputs device' =
        Prod.map id (fun pulled => pulled.dumpingTo directory) (case.pullOutputs device') := rfl
    dsimp only
    rw [hpull]
    rcases case.pullOutputs device' with ⟨_ | e, pulled⟩
    · exact congrArg (fun outcome => (Except.ok outcome, device'))
        (outcome_dumpingTo directory pulled)
    · rfl
  · rfl

/-- What a round comes to and leaves, without the dump. -/
def withoutDump (x : Except Failure Outcome × σ × Device) : Except Failure Outcome × σ × Device :=
  (x.1.map Outcome.withoutDump, x.2)

theorem launchWith_dumpingTo (case : Case) (launch : Launch) (workspace : Pointer) (s : σ)
    (device : Device) :
    withoutDump (launchWith kernel (case.dumpingTo directory) launch workspace s device) =
      withoutDump (launchWith kernel case launch workspace s device) := by
  rw [launchWith_eq, launchWith_eq]
  dsimp only
  have hcollect := collect_dumpingTo directory case (kernel.run
    (kernel.prepare s launch workspace).2 (kernel.prepareOn s launch workspace device)).2.2
  obtain ⟨hresult, hdevice⟩ := Prod.mk.inj hcollect
  split_ifs
  · rfl
  · rfl
  · exact Prod.ext hresult (Prod.ext rfl hdevice)

theorem attempt_dumpingTo (case : Case) (launch : Launch) (s : σ) (device : Device) :
    withoutDump (attempt kernel (case.dumpingTo directory) launch s device) =
      withoutDump (attempt kernel case launch s device) := by
  unfold attempt
  dsimp only
  split_ifs
  · rfl
  · rcases Buffer.allocate (kernel.scratchSize s launch) device with e | ⟨buffer, scratch⟩
    · rfl
    · have hlaunch := launchWith_dumpingTo directory kernel case launch buffer.pointer s scratch
      obtain ⟨hresult, hleft⟩ := Prod.mk.inj hlaunch
      exact Prod.ext hresult
        (congrArg (fun left : σ × Device => (left.1, left.2.release buffer.pointer)) hleft)

/-- **A round comes to the same without its dump**, and leaves the same. -/
theorem run_dumpingTo (r : Round) (s : σ) (device : Device) :
    withoutDump (run kernel (config.dumpingTo directory) r s device) =
      withoutDump (run kernel config r s device) := by
  unfold run
  rw [Case.setUp_dumpingTo]
  rcases Case.setUp config r.problem r.alpha r.beta device with ⟨e | case, placed⟩
  · rfl
  · have hcase : withoutDump (runCase kernel (case.dumpingTo directory) s placed) =
        withoutDump (runCase kernel case s placed) := by
      have hargs : (case.dumpingTo directory).arguments = case.arguments := rfl
      unfold runCase
      rw [hargs]
      cases case.arguments with
      | error e => rfl
      | ok launch => exact attempt_dumpingTo directory kernel case launch s placed
    obtain ⟨hresult, hleft⟩ := Prod.mk.inj hcase
    exact Prod.ext hresult
      (congrArg (fun left : σ × Device => (left.1, case.release left.2)) hleft)

/-- So does every round of a sequence. -/
theorem runAll_dumpingTo (rounds : List Round) (s : σ) (device : Device) :
    (runAll kernel (config.dumpingTo directory) rounds s device).map
        (Prod.map (Except.map Outcome.withoutDump) id) =
      (runAll kernel config rounds s device).map
        (Prod.map (Except.map Outcome.withoutDump) id) := by
  induction rounds generalizing s device with
  | nil => rfl
  | cons r rest ih =>
    obtain ⟨hresult, hleft⟩ := Prod.mk.inj (run_dumpingTo config directory kernel r s device)
    rcases hrun : run kernel config r s device with ⟨result, s', device'⟩
    rcases hrun' : run kernel (config.dumpingTo directory) r s device with ⟨result', s'', device''⟩
    rw [hrun, hrun'] at hresult hleft
    obtain ⟨rfl, rfl⟩ := Prod.mk.inj hleft
    unfold runAll
    rw [hrun, hrun']
    simp only [List.map_cons, ih, Prod.map]
    rw [hresult]

end Round

end FusedGemm
