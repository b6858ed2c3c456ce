import FusedGemm.Json.Codec
import FusedGemm.Proofs.Json.Values

/-!
# Records are read as they were written

A codec is *proper* if all it writes is (`Codec.Proper`), and *exact* at a value that it reads back
(`Codec.Exact`).  A record whose fields have different keys is read field by field, each from what
was written for it (`Codec.read_write_record`).
-/

namespace FusedGemm

variable {α β : Type}

/-! ### Codecs -/

namespace Codec

/-- All that is written is proper. -/
def Proper (codec : Codec α) : Prop := ∀ x, (codec.write x).Proper

/-- The value is read back. -/
def Exact (codec : Codec α) (x : α) : Prop := codec.read (codec.write x) = some x

theorem proper_bool : bool.Proper := fun b => .bool b

theorem proper_word : word.Proper := fun n => .number (Numeral.proper_ofNat n)

theorem exact_word {n : Nat} (h : n < AddressSpace.limit) : word.Exact n :=
  Numeral.toWord?_ofNat h

theorem proper_float : float.Proper := by
  intro x
  show ((Numeral.ofFloat? x).elim Json.null Json.number).Proper
  cases h : Numeral.ofFloat? x with
  | none => exact .null
  | some n => exact .number (Numeral.proper_of_ofFloat? h)

/-- A float is read from the number that is written for it. -/
theorem read_write_float (x : Float) :
    float.read (float.write x) = (Numeral.ofFloat? x).bind Numeral.toFloat? := by
  show float.read ((Numeral.ofFloat? x).elim Json.null Json.number) = _
  cases Numeral.ofFloat? x <;> rfl

theorem proper_optionalString : optionalString.Proper
  | none => .null
  | some s => .string s

theorem exact_optionalString (s : Option String) : optionalString.Exact s := by
  cases s <;> rfl

theorem proper_named (all : List α) (name : α → String) : (named all name).Proper := fun x =>
  .string (name x)

/-! ### Records -/

/-- Fields of which each is written as something proper make a proper record. -/
theorem proper_record {fields : List (Field α)} (base : α)
    (h : ∀ field ∈ fields, ∀ x, (field.write x).Proper) : (record fields base).Proper := by
  intro x
  have hmembers : (record fields base).write x = .object ((fields.map fun field =>
      (field.key, field.write x)).map fun member => (some member.1, member.2)) := by
    rw [List.map_map]
    rfl
  rw [hmembers]
  refine .object fun member hmember => ?_
  obtain ⟨field, hfield, rfl⟩ := List.mem_map.mp hmember
  exact h field hfield x

/-- A field of a record with different keys is read from what was written for it. -/
theorem readMember_map {fields : List (Field α)} (hkeys : (fields.map Field.key).Nodup)
    {field : Field α} (hfield : field ∈ fields) (x y : α) :
    field.readMember (fields.map fun field => (some field.key, field.write x)) y =
      field.read (field.write x) y := by
  have hfilter : (fields.map fun field => (some field.key, field.write x)).filter
      (fun member => member.1 == some field.key) = [(some field.key, field.write x)] := by
    induction fields with
    | nil => cases hfield
    | cons first fields ih =>
      rw [List.map_cons, List.nodup_cons] at hkeys
      rcases List.mem_cons.mp hfield with rfl | hrest
      · rw [List.map_cons, List.filter_cons_of_pos (by simp), List.filter_eq_nil_iff.mpr]
        intro member hmember
        obtain ⟨other, hother, rfl⟩ := List.mem_map.mp hmember
        rw [beq_iff_eq, Option.some_inj]
        intro heq
        exact hkeys.1 (heq ▸ List.mem_map_of_mem hother)
      · rw [List.map_cons, List.filter_cons_of_neg, ih hkeys.2 hrest]
        rw [beq_iff_eq, Option.some_inj]
        intro heq
        exact hkeys.1 (heq ▸ List.mem_map_of_mem hrest)
  unfold Field.readMember
  rw [hfilter]

/-- **A record is read field by field, each from what was written for it.** -/
theorem read_write_record {fields : List (Field α)} (hkeys : (fields.map Field.key).Nodup)
    (base x : α) :
    (record fields base).read ((record fields base).write x) =
      fields.foldlM (fun y field => field.read (field.write x) y) base := by
  show (if (fields.map fun field => (some field.key, field.write x)).all
      (fun member => member.1.isSome) then _ else none) = _
  rw [if_pos (by simp)]
  have hfold : ∀ (part : List (Field α)) (y : α), (∀ field ∈ part, field ∈ fields) →
      part.foldlM (fun y field => field.readMember
        (fields.map fun field => (some field.key, field.write x)) y) y =
      part.foldlM (fun y field => field.read (field.write x) y) y := by
    intro part
    induction part with
    | nil => exact fun y _ => rfl
    | cons field part ih =>
      intro y hpart
      rw [List.foldlM_cons, List.foldlM_cons,
        readMember_map hkeys (hpart field List.mem_cons_self)]
      exact congrArg _ (funext fun z => ih z fun f hf => hpart f (List.mem_cons_of_mem _ hf))
  exact hfold fields base fun _ h => h

end Codec

namespace Field

variable {codec : Codec β} {get : α → β} {set : β → α → α}

/-- What a field reads of what it wrote is what its codec does. -/
theorem read_of (key : String) (x y : α) :
    (of key codec get set).read ((of key codec get set).write x) y =
      (codec.read (codec.write (get x))).map fun z => set z y :=
  rfl

/-- A field whose value is read back is replaced by it. -/
theorem read_of_exact {x : α} (h : codec.Exact (get x)) (key : String) (y : α) :
    (of key codec get set).read ((of key codec get set).write x) y = some (set (get x) y) :=
  congrArg (Option.map _) h

theorem proper_of (h : codec.Proper) (key : String) (x : α) :
    ((of key codec get set).write x).Proper :=
  h (get x)

end Field

end FusedGemm
