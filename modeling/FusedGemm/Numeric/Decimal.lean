import FusedGemm.Numeric.Binary64

/-!
# Decimal text of floats

`Decimal.shortest` finds the shortest decimal that reads back as a given binary number: on the grids
`10 ^ top, 10 ^ (top - 1), …` it looks for a multiple of the grid's unit that lies in the interval
of numbers rounding to the given one.  The first grid with a hit wins; of its two candidates, the
multiples around the number, the nearer one is taken and an exact tie goes where `tie` says.

`plainText` writes such a decimal without an exponent, as messages and tensors do.
-/

namespace FusedGemm

/-- The number `digits * 10 ^ exponent`. -/
structure Decimal where
  digits : Nat
  exponent : Int
  deriving DecidableEq

namespace Decimal

/-- The multiple of `10 ^ grid` that reads back as `significand * 2 ^ exponent`, if one does.

`unit` is `10 ^ grid` and `ulp` is `2 ^ exponent`, both scaled to naturals.  A number rounds to the
given one if it is at most half an ulp away, or less than that when the significand is odd.  Below a
power of two (`lowHalf`) the spacing is half as wide. -/
def onGrid (tie : Tie) (lowHalf : Bool) (significand : Nat) (exponent grid : Int) :
    Option Decimal :=
  let ulp := 2 ^ exponent.toNat * 10 ^ (-grid).toNat
  let unit := 2 ^ (-exponent).toNat * 10 ^ grid.toNat
  let value := significand * ulp
  let below := value / unit
  let downDistance := value % unit
  let upDistance := unit - downDistance
  let inside (distance width : Nat) : Bool :=
    distance < width || (distance == width && significand % 2 == 0)
  let down := inside ((if lowHalf then 4 else 2) * downDistance) ulp
  let up := inside (2 * upDistance) ulp
  let pickUp := up && (!down || upDistance < downDistance ||
    (upDistance == downDistance && tie.resolve below != below))
  if pickUp then some ⟨below + 1, grid⟩
  else if down then some ⟨below, grid⟩
  else none

/-- A grid above the number: `10 ^ top` exceeds `significand * 2 ^ exponent`, as `30103 / 100000` is
just above the decimal logarithm of two. -/
def topGrid (significand : Nat) (exponent : Int) : Int :=
  (((significand.log2 : Int) + 1 + exponent) * 30103).fdiv 100000 + 1

/-- The shortest decimal that reads back as the positive number `significand * 2 ^ exponent` of the
compute format.  Its spacing never needs more than twenty-one grids below the top one. -/
def shortest (tie : Tie) (significand : Nat) (exponent : Int) : Decimal :=
  let lowHalf := significand == 2 ^ (52 : Nat) && FloatFormat.binary64.minQuantum < exponent
  let top := topGrid significand exponent
  let found := (List.range 22).findSome? fun (n : Nat) =>
    onGrid tie lowHalf significand exponent (top - n)
  found.getD ⟨significand * 2 ^ exponent.toNat, 0⟩

/-- The digits of a natural, the most significant first. -/
def digitText (n : Nat) : String := n.repr

/-- The text of a natural with zeros in front, at least `width` characters. -/
def padded (width n : Nat) : String :=
  let text := digitText n
  "".pushn '0' (width - text.length) ++ text

/-- Positional notation: all digits, and a point only when there are places after it. -/
def positional (d : Decimal) : String :=
  if 0 ≤ d.exponent then digitText (d.digits * 10 ^ d.exponent.toNat)
  else
    let places := (-d.exponent).toNat
    let unit := 10 ^ places
    digitText (d.digits / unit) ++ "." ++ padded places (d.digits % unit)

end Decimal

/-- The sign in front of a text. -/
def signed (negative : Bool) (text : String) : String := if negative then "-" ++ text else text

/-- The shortest text of a float without an exponent; a zero shows its sign. -/
def plainText (x : Float) : String :=
  match FloatValue.ofFloat x with
  | .nan => "NaN"
  | .infinite negative => signed negative "inf"
  | .finite negative 0 _ => signed negative "0"
  | .finite negative significand exponent =>
    signed negative (Decimal.shortest .awayFromZero significand exponent).positional

end FusedGemm
