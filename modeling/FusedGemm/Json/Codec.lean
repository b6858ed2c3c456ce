import FusedGemm.Json.Value

/-!
# Values as JSON

A `Codec α` writes values of `α` as JSON and reads them.  A record is described by its `Field`s in
order; `Codec.record` writes it as an object and reads an object whose members may be in any order,
may be missing and may be unknown, but may not occur twice, or an array of the first fields' values.
-/

namespace FusedGemm

/-- How a type is written as JSON and read from it. -/
structure Codec (α : Type) where
  write : α → Json
  read : Json → Option α

/-- A field of a record: its key, its value in a record, and the record with another value read for
it. -/
structure Field (α : Type) where
  key : String
  write : α → Json
  read : Json → α → Option α

namespace Field

variable {α β : Type}

/-- A field by its codec, and by how it is looked up and replaced. -/
def of (key : String) (codec : Codec β) (get : α → β) (set : β → α → α) : Field α where
  key := key
  write x := codec.write (get x)
  read v x := (codec.read v).map fun y => set y x

/-- Reads a field from the members of an object; without such a member the record is kept. -/
def readMember (field : Field α) (members : List (JsonString × Json)) (x : α) : Option α :=
  match members.filter fun member => member.1 == some field.key with
  | [] => some x
  | [(_, v)] => field.read v x
  | _ => none

/-- Reads fields from the items of an array, in order; fields without an item are kept. -/
def readItems : List (Field α) → List Json → α → Option α
  | _, [], x => some x
  | [], _ :: _, _ => none
  | field :: fields, v :: vs, x => (field.read v x).bind (readItems fields vs)

/-- Reads fields from a value into a record. -/
def readAll (fields : List (Field α)) (v : Json) (x : α) : Option α :=
  match v with
  | .object members =>
    if members.all fun member => member.1.isSome then
      fields.foldlM (fun x field => field.readMember members x) x
    else none
  | .array items => readItems fields items x
  | _ => none

end Field

namespace Codec

variable {α : Type}

/-- Truth values. -/
def bool : Codec Bool where
  write := .bool
  read
    | .bool b => some b
    | _ => none

/-- Naturals below `2 ^ 64`. -/
def word : Codec Nat where
  write n := .number (.ofNat n)
  read
    | .number n => n.toWord?
    | _ => none

/-- Floats; infinities and NaN are written as null, which is not read. -/
def float : Codec Float where
  write x := (Numeral.ofFloat? x).elim .null .number
  read
    | .number n => n.toFloat?
    | _ => none

/-- Strings or null. -/
def optionalString : Codec (Option String) where
  write
    | some s => .string (some s)
    | none => .null
  read
    | .null => some none
    | .string (some s) => some (some s)
    | _ => none

/-- One of several values by its name, written as a string.  An object whose only member has the
name as its key and null as its value is read too. -/
def named (all : List α) (name : α → String) : Codec α where
  write x := .string (some (name x))
  read
    | .string (some s) | .object [(some s, .null)] => all.find? fun x => name x == s
    | _ => none

/-- Records by their fields.  A record is read over `base`, whose fields stand in for missing
ones. -/
def record (fields : List (Field α)) (base : α) : Codec α where
  write x := .object (fields.map fun field => (some field.key, field.write x))
  read v := Field.readAll fields v base

end Codec

end FusedGemm
