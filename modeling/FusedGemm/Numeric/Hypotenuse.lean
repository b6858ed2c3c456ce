import FusedGemm.Numeric.Binary64

/-!
# The length of a pair

`hypotenuse x y` is the length `√(x² + y²)` in the compute format.  The rounded root `h` of the
rounded sum of squares is corrected once, to `h - (h² - x² - y²) / 2h`.  In most cases this is the
float nearest to the exact length, and in the others a neighbour of it.

The residual `h² - x² - y²` is small against its terms.  `Hypotenuse.residual` expands it in the
difference of `h` to one of the sides, so that the large terms cancel before anything is rounded.
Sides whose squares would be out of range are scaled by a power of two, which is exact.
-/

namespace FusedGemm

namespace Hypotenuse

/-- The residual `h² - x² - y²`, for `0 ≤ y ≤ x` and a float `h` near the length. -/
def residual (h x y : Float) : Float :=
  if h ≤ 2.0 * y then
    let d := h - y
    x * (2.0 * d - x) + (d - 2.0 * (x - y)) * d
  else
    let d := h - x
    2.0 * d * (x - 2.0 * y) + ((4.0 * d - y) * y + d * d)

/-- The corrected root, for `0 ≤ y ≤ x` whose squares are in range. -/
def correctedRoot (x y : Float) : Float :=
  let h := (x * x + y * y).sqrt
  h - residual h x y / (2.0 * h)

/-- The factor that brings sides back into range. -/
def scaling : Float := powerOfTwo 600

/-- The largest side whose square is in range with room to spare. -/
def upperBound : Float := powerOfTwo 511

/-- The smallest such side. -/
def lowerBound : Float := powerOfTwo (-459)

/-- The length, for `0 ≤ y ≤ x`.  Where `y` is below the last bit of `x`, the sum is taken. -/
def ofSides (x y : Float) : Float :=
  if y * powerOfTwo 54 ≤ x then x + y
  else if upperBound < x then correctedRoot (x / scaling) (y / scaling) * scaling
  else if y < lowerBound then correctedRoot (x * scaling) (y * scaling) / scaling
  else correctedRoot x y

end Hypotenuse

/-- The length `√(x² + y²)`.  It is infinite if a side is, and else NaN if a side is. -/
def hypotenuse (x y : Float) : Float :=
  if x.isInf || y.isInf then (FloatValue.infinite false).toFloat
  else if x.abs < y.abs then Hypotenuse.ofSides y.abs x.abs
  else Hypotenuse.ofSides x.abs y.abs

end FusedGemm
