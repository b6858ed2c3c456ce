import FusedGemm.Numeric.FloatFormat

/-!
# The compute format

All arithmetic is done on `Float`, the 64-bit binary format.  This module reads a `Float` as the
exact number it stands for and back, and adds the operations on it that arithmetic needs beyond
those of core: the larger of two numbers, rounding to an integer, and powers of two.
-/

namespace FusedGemm

namespace FloatValue

/-- The number a `Float` stands for. -/
def ofFloat (x : Float) : FloatValue := FloatFormat.binary64.decode x.toBits.toNat

/-- The `Float` nearest to a number. -/
def toFloat (value : FloatValue) : Float :=
  Float.ofBits (UInt64.ofNat (FloatFormat.binary64.encode value))

/-- An integer as a number; zero is positive. -/
def ofInt (n : Int) : FloatValue := .finite (decide (n < 0)) n.natAbs 0

/-- The integer nearest to a number, infinities going to the given bounds and NaN to zero. -/
def toIntWithin (tie : Tie) (least greatest : Int) : FloatValue → Int
  | .nan => 0
  | .infinite negative => if negative then least else greatest
  | .finite negative significand exponent =>
    let magnitude : Int := tie.scale significand exponent
    max least (min greatest (if negative then -magnitude else magnitude))

/-- The nearest integer that is still a number of the same sign, so that minus zero is kept. -/
def roundToInteger (tie : Tie) : FloatValue → FloatValue
  | .finite negative significand exponent =>
    if 0 ≤ exponent then .finite negative significand exponent
    else .finite negative (tie.scale significand exponent) 0
  | value => value

end FloatValue

/-- Minus zero or a number below zero. -/
def isNegative (x : Float) : Bool :=
  match FloatValue.ofFloat x with
  | .nan => false
  | .infinite negative | .finite negative _ _ => negative

/-- The larger of two floats.  NaN gives way to the other one, and `+0` is larger than `-0`. -/
def maxNumber (x y : Float) : Float :=
  if x.isNaN then y
  else if y.isNaN then x
  else if x < y then y
  else if y < x then x
  else if isNegative x then y else x

/-- The nearest integer, a half going away from zero. -/
def roundAway (x : Float) : Float :=
  ((FloatValue.ofFloat x).roundToInteger .awayFromZero).toFloat

/-- The float `2 ^ e`. -/
def powerOfTwo (e : Int) : Float := (FloatValue.finite false 1 e).toFloat

end FusedGemm
