import FusedGemm.Numeric.AddressSpace
import FusedGemm.Numeric.Decimal

/-!
# Numbers in JSON text

A `Numeral` is a number as it is written: its digits before and after the point, and its exponent.
`Numeral.ofFloat?` writes a finite float, `Numeral.toFloat?` reads one, and `Numeral.toWord?` reads
a 64-bit natural, which has to be written as one.

Reading a float is quick rather than exact.  The significand is made of the leading digits, as many
as fit in 64 bits, and rounded to a float; that float is multiplied or divided by the power of ten
that is missing, which rounds once more.  The result can therefore be a neighbour of the nearest
float.
-/

namespace FusedGemm

/-- A number as it is written. -/
structure Numeral where
  negative : Bool
  /-- The digits before the point. -/
  whole : List Char
  /-- The digits after the point; none if there is no point. -/
  fraction : List Char
  exponent : Option Int
  deriving DecidableEq

namespace Numeral

/-- The value of a digit. -/
def digitValue (c : Char) : Nat := c.toNat - '0'.toNat

/-- The natural that digits stand for. -/
def digitsValue (cs : List Char) : Nat := cs.foldl (fun n c => 10 * n + digitValue c) 0

/-! ## Writing -/

/-- The text of a number. -/
def text (n : Numeral) : String :=
  let fraction := if n.fraction.isEmpty then "" else "." ++ String.ofList n.fraction
  let exponent := match n.exponent with
    | none => ""
    | some e => "e" ++ (if e < 0 then "-" else "+") ++ e.natAbs.repr
  signed n.negative (String.ofList n.whole ++ fraction ++ exponent)

/-- The largest exponent of a positional number's first digit, plus one. -/
def positionalUpTo : Int := 16

/-- The smallest such exponent, plus one. -/
def positionalFrom : Int := -4

/-- A decimal as a number.  Where its first digit is far from the point it is written with an
exponent, and else with at least one digit after the point. -/
def ofDecimal (negative : Bool) (d : Decimal) : Numeral :=
  let digits := d.digits.repr.toList
  let magnitude := d.exponent + (digits.length : Int)
  if magnitude < positionalFrom || positionalUpTo < magnitude then
    ⟨negative, digits.take 1, digits.drop 1, some (magnitude - 1)⟩
  else if 0 ≤ d.exponent then
    ⟨negative, digits ++ List.replicate d.exponent.toNat '0', ['0'], none⟩
  else
    let places := (-d.exponent).toNat
    let padded := List.replicate (places + 1 - digits.length) '0' ++ digits
    ⟨negative, padded.take (padded.length - places), padded.drop (padded.length - places), none⟩

/-- The shortest number that stands for a finite float.  There is none for infinities and NaN. -/
def ofFloat? (x : Float) : Option Numeral :=
  match FloatValue.ofFloat x with
  | .nan | .infinite _ => none
  | .finite negative 0 _ => some ⟨negative, ['0'], ['0'], none⟩
  | .finite negative significand exponent =>
    some (ofDecimal negative (Decimal.shortest .toEven significand exponent))

/-- A natural as a number. -/
def ofNat (n : Nat) : Numeral := ⟨false, n.repr.toList, [], none⟩

/-! ## Reading -/

/-- The number is written as an integer. -/
def isInteger (n : Numeral) : Bool := n.fraction.isEmpty && n.exponent.isNone

/-- The natural below `2 ^ 64` that a number without sign, point and exponent stands for. -/
def toWord? (n : Numeral) : Option Nat :=
  if n.isInteger && !n.negative then AddressSpace.check (digitsValue n.whole) else none

/-- The significand with the digits before the point, and how many of them did not fit. -/
def wholeSignificand (significand : Nat) : List Char → Nat × Nat
  | [] => (significand, 0)
  | c :: cs =>
    match AddressSpace.check (10 * significand + digitValue c) with
    | some significand' => wholeSignificand significand' cs
    | none => (significand, cs.length + 1)

/-- The significand with the digits after the point, and how many of them fit. -/
def fractionSignificand (significand : Nat) : List Char → Nat × Nat
  | [] => (significand, 0)
  | c :: cs =>
    match AddressSpace.check (10 * significand + digitValue c) with
    | some significand' => let (s, n) := fractionSignificand significand' cs; (s, n + 1)
    | none => (significand, 0)

/-- The float nearest to a power of ten. -/
def powerOfTen (n : Nat) : Float := (FloatValue.finite false (10 ^ n) 0).toFloat

/-- The largest exponent whose power of ten is a float. -/
def maxPower : Int := 308

/-- A float times a power of ten, unless that is beyond the largest float.  Powers too small for a
float take two divisions, and two of those leave nothing of any significand. -/
def timesPowerOfTen (x : Float) (e : Int) : Option Float :=
  if x == 0.0 then some x
  else if maxPower < e then none
  else if 0 ≤ e then
    let y := x * powerOfTen e.toNat
    if y.isInf then none else some y
  else if -maxPower ≤ e then some (x / powerOfTen (-e).toNat)
  else if -2 * maxPower ≤ e then
    some (x / powerOfTen maxPower.toNat / powerOfTen (-e - maxPower).toNat)
  else some 0.0

/-- The float that a number is read as, unless it is beyond the largest float. -/
def toFloat? (n : Numeral) : Option Float := do
  let (whole, dropped) := wholeSignificand 0 n.whole
  let (significand, kept) := fractionSignificand whole n.fraction
  let exponent := n.exponent.getD 0 + dropped - kept
  let x ← timesPowerOfTen (FloatValue.finite false significand 0).toFloat exponent
  return if n.negative then -x else x

end Numeral

end FusedGemm
