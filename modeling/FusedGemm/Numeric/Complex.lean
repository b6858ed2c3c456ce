import FusedGemm.Numeric.Hypotenuse

/-!
# Complex numbers over the compute format

Every element is widened to a `ComplexFloat` before it takes part in arithmetic; a real element has
imaginary part `+0`.  No operation is fused or reordered: each sum, difference and product below is
rounded on its own.
-/

namespace FusedGemm

/-- A complex number whose parts are floats. -/
structure ComplexFloat where
  re : Float
  im : Float
  deriving DecidableEq

namespace ComplexFloat

/-- A real number. -/
def ofReal (x : Float) : ComplexFloat := ⟨x, 0⟩

/-- Zero, with both parts positive. -/
def zero : ComplexFloat := ⟨0, 0⟩

instance : Inhabited ComplexFloat := ⟨zero⟩

/-- The sum, part by part. -/
def add (z w : ComplexFloat) : ComplexFloat := ⟨z.re + w.re, z.im + w.im⟩

/-- The product. -/
def mul (z w : ComplexFloat) : ComplexFloat :=
  ⟨z.re * w.re - z.im * w.im, z.re * w.im + z.im * w.re⟩

/-- Both parts times a real number. -/
def scale (z : ComplexFloat) (x : Float) : ComplexFloat := ⟨z.re * x, z.im * x⟩

instance : Add ComplexFloat := ⟨add⟩
instance : Mul ComplexFloat := ⟨mul⟩

/-- The absolute value; of a real number, its distance from zero. -/
def norm (z : ComplexFloat) : Float := if z.im == 0 then z.re.abs else hypotenuse z.re z.im

/-- The squared absolute value. -/
def normSquared (z : ComplexFloat) : Float := z.re * z.re + z.im * z.im

/-- Equality as floats have it: NaN differs from itself and the zeros are equal. -/
def eqv (z w : ComplexFloat) : Bool := z.re == w.re && z.im == w.im

end ComplexFloat

end FusedGemm
