import FusedGemm.Gemm.Emulation
import FusedGemm.Proofs.Config.Validity
import FusedGemm.Proofs.Json.Numerals
import FusedGemm.Proofs.Trial.Dumping

/-!
# Files of dumps

The name of a dump consists of numbers with a separator after each of them, and no separator starts
with a digit, so the numbers can be read back (`delimited_inj`): dumps of different problems or
tiles have different names.  A round writes no other file than that of its problem
(`Round.fileName_of_run`).  So what has been written for a problem stays until a later round fails
on the same problem (`Dump.nameFor_separates`).
-/

namespace FusedGemm

/-! ### Numbers with separators -/

/-- Numbers in digits, with a separator after each of them. -/
def delimited (ns : List Nat) (separators : List (List Char)) : List Char :=
  (ns.zip separators).flatMap fun field => Nat.toDigits 10 field.1 ++ field.2

theorem delimited_cons (n : Nat) (ns : List Nat) (separator : List Char)
    (separators : List (List Char)) :
    delimited (n :: ns) (separator :: separators) =
      Nat.toDigits 10 n ++ (separator ++ delimited ns separators) :=
  List.append_assoc _ _ _

/-- A number that no digit follows can be read back. -/
theorem toDigits_append_inj {m n : Nat} {rest rest' : List Char} (hrest : Json.NoDigit rest)
    (hrest' : Json.NoDigit rest')
    (h : Nat.toDigits 10 m ++ rest = Nat.toDigits 10 n ++ rest') : m = n ∧ rest = rest' := by
  have hread := congrArg Json.readDigits h
  rw [Json.readDigits_append Nat.toDigits_ne_nil (fun _ => isDigit_of_mem_toDigits) hrest,
    Json.readDigits_append Nat.toDigits_ne_nil (fun _ => isDigit_of_mem_toDigits) hrest'] at hread
  obtain ⟨hdigits, hrests⟩ := Prod.mk.inj (Option.some.inj hread)
  have hvalue := congrArg Numeral.digitsValue hdigits
  rw [Numeral.digitsValue_toDigits, Numeral.digitsValue_toDigits] at hvalue
  exact ⟨hvalue, hrests⟩

/-- A separator is not empty and does not start with a digit. -/
def Separates (separator : List Char) : Prop :=
  (separator.head?.any fun c => !c.isDigit) = true

instance (separator : List Char) : Decidable (Separates separator) :=
  inferInstanceAs (Decidable (_ = true))

theorem Separates.noDigit_append {separator : List Char} (h : Separates separator)
    (rest : List Char) : Json.NoDigit (separator ++ rest) := by
  cases separator with
  | nil => cases h
  | cons c cs =>
    rintro _ ⟨⟩
    exact Bool.not_eq_true' _ ▸ h

/-- **Numbers with separators can be read back.** -/
theorem delimited_inj {separators : List (List Char)} (hs : ∀ s ∈ separators, Separates s)
    {ms ns : List Nat} (hm : ms.length = separators.length) (hn : ns.length = separators.length)
    (h : delimited ms separators = delimited ns separators) : ms = ns := by
  induction separators generalizing ms ns with
  | nil => rw [List.eq_nil_of_length_eq_zero hm, List.eq_nil_of_length_eq_zero hn]
  | cons separator separators ih =>
    obtain ⟨m, ms, rfl⟩ := List.exists_cons_of_length_eq_add_one hm
    obtain ⟨n, ns, rfl⟩ := List.exists_cons_of_length_eq_add_one hn
    have hseparator := hs separator List.mem_cons_self
    rw [delimited_cons, delimited_cons] at h
    obtain ⟨rfl, hrest⟩ := toDigits_append_inj (hseparator.noDigit_append _)
      (hseparator.noDigit_append _) h
    rw [ih (fun s hmem => hs s (List.mem_cons_of_mem _ hmem)) (Nat.succ.inj hm) (Nat.succ.inj hn)
      (List.append_cancel_left hrest)]

/-! ### Names -/

namespace Dump

/-- The numbers in the name of a dump. -/
def nameNumbers (p : Problem) (tile : Tile) : List Nat :=
  [p.m, p.n, p.k, p.batch, tile.m, tile.n, tile.k]

/-- What follows them. -/
def nameSeparators : List (List Char) :=
  ["x", "x", "x", "_", "_", "_", ".txt"].map String.toList

theorem toList_nameFor (p : Problem) (tile : Tile) : (nameFor p tile).toList =
    "error_Gemm_device_".toList ++ delimited (nameNumbers p tile) nameSeparators := by
  unfold nameFor Problem.text nameNumbers nameSeparators
  simp only [String.toList_append, Nat.toList_repr, List.map_cons, List.map_nil, delimited_cons,
    List.append_assoc]
  rfl

theorem separates_name : ∀ s ∈ nameSeparators, Separates s := by decide

/-- **Different problems or tiles have dumps of different names.** -/
theorem nameFor_inj {p q : Problem} {s t : Tile} (h : nameFor p s = nameFor q t) :
    p = q ∧ s = t := by
  have hlist := congrArg String.toList h
  rw [toList_nameFor, toList_nameFor] at hlist
  have hnumbers : nameNumbers p s = nameNumbers q t :=
    delimited_inj separates_name rfl rfl (List.append_cancel_left hlist)
  obtain ⟨m, n, k, batch, _⟩ := p
  obtain ⟨m', n', k', batch', _⟩ := q
  obtain ⟨sm, sn, sk⟩ := s
  obtain ⟨tm, tn, tk⟩ := t
  simp only [nameNumbers, List.cons.injEq, and_true] at hnumbers
  obtain ⟨rfl, rfl, rfl, rfl, rfl, rfl, rfl⟩ := hnumbers
  exact ⟨rfl, rfl⟩

end Dump

/-! ### The dump of a round -/

/-- An action after another one succeeds where both do. -/
theorem Acquire.exists_of_bind_apply_eq_ok {α β : Type} {action : Acquire α} {next : α → Acquire β}
    {lease lease' : Lease} {y : β} (h : (action >>= next) lease = (.ok y, lease')) :
    ∃ x between, action lease = (.ok x, between) ∧ next x between = (.ok y, lease') := by
  rw [Acquire.bind_apply] at h
  rcases hr : action lease with ⟨e | x, between⟩
  · rw [hr] at h
    cases h
  · rw [hr] at h
    exact ⟨x, between, rfl, h⟩

/-- A case that has been set up is one of the configuration and the problem. -/
theorem Case.eq_of_setUp {config : Config} {p : Problem} {x y : Float} {device placed : Device}
    {case : Case} (h : setUp config p x y device = (.ok case, placed)) :
    case.config = config ∧ case.problem = p := by
  unfold setUp at h
  cases hv : config.validate with
  | error e =>
    rw [hv] at h
    cases h
  | ok valid =>
    obtain ⟨-, rfl⟩ := Config.validate_eq_ok hv
    rw [hv] at h
    unfold materialize Acquire.run ExceptT.run at h
    dsimp only at h
    rcases hr : valid.acquire p x y ⟨device, []⟩ with ⟨e | made, lease⟩ <;> rw [hr] at h <;> cases h
    obtain ⟨operands, between, -, hrest⟩ := Acquire.exists_of_bind_apply_eq_ok hr
    obtain ⟨comparison, between', -, hcase⟩ := Acquire.exists_of_bind_apply_eq_ok hrest
    cases hcase
    exact ⟨rfl, rfl⟩

/-- Copying outputs back changes neither the configuration nor the problem. -/
theorem Case.eq_of_pullOutputs {case pulled : Case} {device : Device} {e : Option DeviceError}
    (h : case.pullOutputs device = (e, pulled)) :
    pulled.config = case.config ∧ pulled.problem = case.problem := by
  cases h
  exact ⟨rfl, rfl⟩

/-- The dump of a comparison is named for the problem and the tile of the case. -/
theorem Case.fileName_of_outcome {case : Case} {dump : Dump} (h : case.outcome.dump? = some dump) :
    dump.fileName = Dump.nameFor case.problem case.config.tile := by
  unfold outcome verify at h
  dsimp only at h
  split_ifs at h with hpassed
  · cases h
  · unfold Outcome.dump? dumpFor at h
    rw [if_neg hpassed] at h
    obtain ⟨-, -, rfl⟩ := Option.map_eq_some_iff.mp h
    rfl

namespace Round

section Run
variable {σ : Type} {kernel : Kernel σ} {config : Config} {r : Round} {s : σ} {device : Device}
  {outcome : Outcome} {dump : Dump}

theorem exists_report_of_dump (h : outcome.dump? = some dump) :
    ∃ report, outcome.report? = some report := by
  cases outcome with
  | mismatch report _ => exact ⟨report, rfl⟩
  | passed report => exact ⟨report, rfl⟩
  | skipped status => cases h
  | kernelFailed stage status => cases h
  | deviceFailed e => cases h

/-- **A round has no dump but one that is named for its problem.** -/
theorem fileName_of_run (h : (run kernel config r s device).1 = .ok outcome)
    (hdump : outcome.dump? = some dump) :
    dump.fileName = Dump.nameFor r.problem config.tile := by
  obtain ⟨report, hreport⟩ := exists_report_of_dump hdump
  obtain ⟨case, launched, hlaunched⟩ := exists_launched_of_report h hreport
  rw [run_of_launched hlaunched] at h
  obtain ⟨pulled, hpulled, rfl⟩ := exists_pulled_of_report h hreport
  obtain ⟨hconfig, hproblem⟩ := Case.eq_of_pullOutputs hpulled
  obtain ⟨hset⟩ := hlaunched
  obtain ⟨rfl, hp⟩ := Case.eq_of_setUp hset
  rw [Case.fileName_of_outcome hdump, hconfig, hproblem, hp]

end Run

/-- The dump of what a round came to, if there is one. -/
def dump? : Except Failure Outcome → Option Dump
  | .ok outcome => outcome.dump?
  | .error _ => none

/-- The dumps of what rounds came to, in the order of the rounds. -/
def dumps (results : List (Except Failure Outcome)) : List Dump := results.filterMap dump?

theorem mem_dumps {results : List (Except Failure Outcome)} {dump : Dump} :
    dump ∈ dumps results ↔ ∃ outcome, .ok outcome ∈ results ∧ outcome.dump? = some dump := by
  unfold dumps
  rw [List.mem_filterMap]
  constructor
  · rintro ⟨e | outcome, hmem, hdump⟩
    · cases hdump
    · exact ⟨outcome, hmem, hdump⟩
  · rintro ⟨outcome, hmem, hdump⟩
    exact ⟨_, hmem, hdump⟩

variable {σ : Type} (kernel : Kernel σ) (config : Config)

/-- What rounds come to, one after the other. -/
def results (rounds : List Round) (s : σ) (device : Device) : List (Except Failure Outcome) :=
  (runAll kernel config rounds s device).map Prod.fst

theorem results_cons (r : Round) (rest : List Round) (s : σ) (device : Device) :
    results kernel config (r :: rest) s device =
      (run kernel config r s device).1 ::
        results kernel config rest (run kernel config r s device).2.1
          (run kernel config r s device).2.2 := rfl

/-- The dumps of rounds are named for their problems. -/
theorem exists_problem_of_mem_dumps {rounds : List Round} {s : σ} {device : Device} {dump : Dump}
    (h : dump ∈ dumps (results kernel config rounds s device)) :
    ∃ r ∈ rounds, dump.fileName = Dump.nameFor r.problem config.tile := by
  induction rounds generalizing s device with
  | nil => cases h
  | cons r rest ih =>
    obtain ⟨outcome, hmem, hdump⟩ := mem_dumps.mp h
    rw [results_cons] at hmem
    rcases List.mem_cons.mp hmem with hfirst | hrest
    · exact ⟨r, List.mem_cons_self, fileName_of_run hfirst.symm hdump⟩
    · obtain ⟨r', hr', hname⟩ := ih (mem_dumps.mpr ⟨outcome, hrest, hdump⟩)
      exact ⟨r', List.mem_cons_of_mem _ hr', hname⟩

end Round

/-! ### Writing dumps -/

/-- The texts of the files in a directory, by name. -/
abbrev Files := String → Option String

namespace Files

/-- The files after a dump has been written. -/
def write (files : Files) (dump : Dump) : Files := fun name =>
  if name = dump.fileName then some dump.text else files name

variable {files : Files} {name : String}

theorem write_self (files : Files) (dump : Dump) :
    files.write dump dump.fileName = some dump.text := if_pos rfl

theorem write_of_ne {dump : Dump} (h : dump.fileName ≠ name) : files.write dump name = files name :=
  if_neg (Ne.symm h)

/-- A file stays as it is if no dump has its name. -/
theorem foldl_write_of_ne {dumps : List Dump} (h : ∀ dump ∈ dumps, dump.fileName ≠ name) :
    dumps.foldl write files name = files name := by
  induction dumps generalizing files with
  | nil => rfl
  | cons dump dumps ih =>
    rw [List.foldl_cons, ih fun d hd => h d (List.mem_cons_of_mem _ hd),
      write_of_ne (h dump List.mem_cons_self)]

end Files

/-- **Dumps do not overwrite each other.**  Two problems with two tiles have dumps of one name only
if the problems and the tiles are the same.  So where a round has failed and has a dump, its file
holds that dump after any later rounds on other problems, whatever these come to. -/
theorem Dump.nameFor_separates (p : Problem) (tile : Tile) :
    (∀ q tile', nameFor p tile = nameFor q tile' ↔
      (p.m = q.m ∧ p.n = q.n ∧ p.k = q.k ∧ p.batch = q.batch) ∧ tile = tile') ∧
    ∀ (σ : Type) (kernel : Kernel σ) (config : Config) (r : Round) (later : List Round) (s : σ)
      (device : Device) (files : Files) (outcome : Outcome) (dump : Dump),
      r.problem = p → config.tile = tile → (∀ r' ∈ later, r'.problem ≠ p) →
      (Round.run kernel config r s device).1 = .ok outcome → outcome.dump? = some dump →
      (Round.dumps (Round.results kernel config (r :: later) s device)).foldl Files.write files
        (nameFor p tile) = some dump.text := by
  refine ⟨fun q tile' => ⟨fun h => ?_, ?_⟩, ?_⟩
  · obtain ⟨rfl, rfl⟩ := nameFor_inj h
    exact ⟨⟨rfl, rfl, rfl, rfl⟩, rfl⟩
  · rintro ⟨⟨hm, hn, hk, hbatch⟩, rfl⟩
    unfold nameFor Problem.text
    rw [hm, hn, hk, hbatch]
  · rintro σ kernel config r later s device files outcome dump rfl rfl hlater hrun hdump
    have hname := Round.fileName_of_run hrun hdump
    have hcons : Round.dumps (Round.results kernel config (r :: later) s device) =
        dump :: Round.dumps (Round.results kernel config later
          (Round.run kernel config r s device).2.1 (Round.run kernel config r s device).2.2) := by
      rw [Round.results_cons, hrun]
      exact List.filterMap_cons_some hdump
    rw [hcons, List.foldl_cons, Files.foldl_write_of_ne, ← hname, Files.write_self]
    intro dump' hdump' hsame
    obtain ⟨r', hr', hname'⟩ := Round.exists_problem_of_mem_dumps kernel config hdump'
    exact hlater r' hr' (nameFor_inj (hname'.symm.trans hsame)).1

/-- A product of a column by a number. -/
def Round.tall : Round := ⟨.single 2 1 1, 1, 0⟩

/-- A product of a number by a row. -/
def Round.wide : Round := ⟨.single 1 2 1, 1, 0⟩

/-- A configuration with dumps. -/
def Config.dumping : Config := { dumpDirectory := some "dumps" }

/-- A kernel whose first element is wrong. -/
def EmulatedKernel.offByOne : EmulatedKernel := { faults := [.offsetD 0 1] }

/-- The dump of the tall product is still there after the wide one, though both fail. -/
theorem Dump.nameFor_separates_tallWide :
    nameFor Round.tall.problem Config.dumping.tile ≠
      nameFor Round.wide.problem Config.dumping.tile ∧
    (Round.dumps (Round.results emulation .dumping [.tall, .wide] .offByOne {})).length = 2 ∧
    ∃ outcome dump, (Round.run emulation .dumping .tall .offByOne {}).1 = .ok outcome ∧
      outcome.dump? = some dump ∧
      (Round.dumps (Round.results emulation .dumping [.tall, .wide] .offByOne {})).foldl Files.write
        (fun _ => none) (nameFor Round.tall.problem Config.dumping.tile) = some dump.text := by
  have hne : ∀ r' ∈ [Round.wide], r'.problem ≠ Round.tall.problem := by decide
  have hlength : (Round.dumps (Round.results emulation .dumping [.tall, .wide] .offByOne
      {})).length = 2 := by decide +kernel
  have hdump : ((Round.run emulation .dumping .tall .offByOne {}).1.toOption.bind
      Outcome.dump?).isSome = true := by decide +kernel
  obtain ⟨hname, hwrite⟩ := nameFor_separates Round.tall.problem Config.dumping.tile
  refine ⟨?_, hlength, ?_⟩
  · rw [Ne, hname]
    decide
  · cases hrun : (Round.run emulation .dumping .tall .offByOne {}).1 with
    | error e =>
      rw [hrun] at hdump
      cases hdump
    | ok outcome =>
      rw [hrun] at hdump
      obtain ⟨dump, hdump⟩ := Option.isSome_iff_exists.mp hdump
      exact ⟨outcome, dump, rfl, hdump, hwrite _ emulation .dumping .tall [.wide] .offByOne {}
        (fun _ => none) outcome dump rfl rfl hne hrun hdump⟩

end FusedGemm
