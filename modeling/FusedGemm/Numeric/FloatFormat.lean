import FusedGemm.Numeric.Rounding

/-!
# Binary floating-point formats

A `FloatFormat` is given by the widths of its exponent and mantissa fields and by what its largest
codes stand for.  `decode` reads a code as a `FloatValue`, an exact dyadic number, and `encode`
rounds a `FloatValue` to the nearest code, a half going to the even significand.

Without the sign, the finite codes of a format are `0, 1, …, maxCode` in the order of their values,
so a carry out of the mantissa is the next code and needs no case of its own.  A magnitude that
rounds beyond `maxCode` becomes `maxCode` in a format that saturates and infinity in one that does
not.
-/

namespace FusedGemm

/-- What a float stands for: a signed dyadic number `significand * 2 ^ exponent`, a signed infinity,
or no number.  Zero keeps its sign. -/
inductive FloatValue where
  | nan
  | infinite (negative : Bool)
  | finite (negative : Bool) (significand : Nat) (exponent : Int)
  deriving DecidableEq

/-- A binary float format with a sign bit in front of its exponent and mantissa fields. -/
structure FloatFormat where
  exponentBits : Nat
  mantissaBits : Nat
  /-- The largest exponent field is kept for infinity and NaN.  Without infinity only the largest
  code is NaN. -/
  hasInfinity : Bool
  /-- A finite magnitude beyond the largest finite one is stored as the largest finite one. -/
  saturates : Bool
  /-- The code written for NaN. -/
  nanCode : Nat
  deriving DecidableEq

namespace FloatFormat

/-! ## The formats -/

/-- The 64-bit format in which all arithmetic is done. -/
def binary64 : FloatFormat := ⟨11, 52, true, false, 0x7ff8000000000000⟩

/-- The 32-bit format. -/
def binary32 : FloatFormat := ⟨8, 23, true, false, 0x7fc00000⟩

/-- The 16-bit format with five exponent bits. -/
def binary16 : FloatFormat := ⟨5, 10, true, false, 0x7e00⟩

/-- The 16-bit format with the exponent range of `binary32`. -/
def brain16 : FloatFormat := ⟨8, 7, true, false, 0x7fc0⟩

/-- The 8-bit format with four exponent bits and no infinity. -/
def e4m3 : FloatFormat := ⟨4, 3, false, true, 0x7f⟩

/-- The 8-bit format with five exponent bits. -/
def e5m2 : FloatFormat := ⟨5, 2, true, true, 0x7f⟩

/-! ## Codes -/

variable (format : FloatFormat)

/-- Bits of a code. -/
def width : Nat := 1 + format.exponentBits + format.mantissaBits

/-- What the sign bit adds to a code; the codes below it are the magnitudes. -/
def signWeight : Nat := 2 ^ (format.exponentBits + format.mantissaBits)

/-- The magnitude that stands for infinity where the format has one. -/
def infinityCode : Nat := (2 ^ format.exponentBits - 1) * 2 ^ format.mantissaBits

/-- The magnitude of the largest finite value. -/
def maxCode : Nat :=
  if format.hasInfinity then format.infinityCode - 1 else format.signWeight - 2

/-- The binary exponent of the smallest normal value, `1 - bias`. -/
def minExponent : Int := 2 - 2 ^ (format.exponentBits - 1)

/-- The binary exponent of the smallest subnormal value, and the spacing of all subnormal ones. -/
def minQuantum : Int := format.minExponent - format.mantissaBits

/-- The value of a finite magnitude `n`. -/
def magnitudeValue (negative : Bool) (n : Nat) : FloatValue :=
  let field := n / 2 ^ format.mantissaBits
  let fraction := n % 2 ^ format.mantissaBits
  if field = 0 then .finite negative fraction format.minQuantum
  else .finite negative (2 ^ format.mantissaBits + fraction) (format.minQuantum + (field - 1 : Nat))

/-- What a code stands for. -/
def decode (code : Nat) : FloatValue :=
  let negative := code / format.signWeight % 2 == 1
  let magnitude := code % format.signWeight
  if magnitude ≤ format.maxCode then format.magnitudeValue negative magnitude
  else if format.hasInfinity && magnitude == format.infinityCode then .infinite negative
  else .nan

/-! ## Rounding -/

/-- The magnitude nearest to `significand * 2 ^ exponent` when the exponent field is not bounded
above: the significand is rounded to the spacing of its binade, and never below that of the
subnormal values. -/
def roundMagnitude (significand : Nat) (exponent : Int) : Nat :=
  if significand = 0 then 0
  else
    let binade := max (significand.log2 + exponent) format.minExponent
    (binade - format.minExponent).toNat * 2 ^ format.mantissaBits +
      Tie.toEven.scale significand (exponent - (binade - format.mantissaBits))

/-- The magnitude of an infinite value. -/
def overflowCode : Nat := if format.hasInfinity then format.infinityCode else format.maxCode

/-- A rounded magnitude kept within the format. -/
def clampMagnitude (n : Nat) : Nat :=
  if n ≤ format.maxCode then n
  else if format.saturates then format.maxCode
  else format.overflowCode

/-- A magnitude with its sign. -/
def withSign (negative : Bool) (magnitude : Nat) : Nat :=
  if negative then format.signWeight + magnitude else magnitude

/-- The code of the value nearest to the given one. -/
def encode : FloatValue → Nat
  | .nan => format.nanCode
  | .infinite negative => format.withSign negative format.overflowCode
  | .finite negative significand exponent =>
    format.withSign negative (format.clampMagnitude (format.roundMagnitude significand exponent))

/-- The value nearest to the given one among those of the format. -/
def round (value : FloatValue) : FloatValue := format.decode (format.encode value)

/-- The largest finite value. -/
def largest : FloatValue := format.decode format.maxCode

/-- The smallest positive value whose significand has all its bits. -/
def smallestNormal : FloatValue := format.decode (2 ^ format.mantissaBits)

end FloatFormat

end FusedGemm
