import FusedGemm.Numeric.Complex

/-!
# Element types

An `ElementType` says how the elements of a tensor are stored.  `encode` rounds a complex number to
the code of an element and `decode` widens a code again.  A real type stores the real part alone.

`quantize` is `decode ∘ encode`.  Types narrower than the compute format round to nearest with ties
to even; two of them take a detour that can round twice: the 16-bit format with five exponent bits
is reached through the 32-bit one, and for the 16-bit format with eight exponent bits the lower half
of the 64-bit code is cut off first.
-/

namespace FusedGemm

/-- How the elements of a tensor are stored. -/
inductive ElementType where
  | f32
  | f16
  | bf16
  | f8e4m3
  | f8e5m2
  | i8
  | i32
  /-- A pair of 32-bit floats, the real part in the lower half of the code. -/
  | c32
  deriving DecidableEq

namespace ElementType

/-- All element types. -/
def all : List ElementType := [.f32, .f16, .bf16, .f8e4m3, .f8e5m2, .i8, .i32, .c32]

/-- The name by which configurations and messages refer to a type. -/
def name : ElementType → String
  | .f32 => "F32"
  | .f16 => "F16"
  | .bf16 => "Bf16"
  | .f8e4m3 => "F8E4M3"
  | .f8e5m2 => "F8E5M2"
  | .i8 => "I8"
  | .i32 => "I32"
  | .c32 => "C32"

/-- The bytes of an element. -/
def size : ElementType → Nat
  | .f8e4m3 | .f8e5m2 | .i8 => 1
  | .f16 | .bf16 => 2
  | .f32 | .i32 => 4
  | .c32 => 8

/-- The bits of an element. -/
def bits (t : ElementType) : Nat := 8 * t.size

theorem size_pos (t : ElementType) : 0 < t.size := by cases t <;> decide

/-- One of the two 8-bit float formats.  Outputs stored in them are tracked with their largest
absolute value, from which they are rescaled later. -/
def isFloat8 (t : ElementType) : Bool := t == .f8e4m3 || t == .f8e5m2

/-- Elements with an imaginary part. -/
def isComplex (t : ElementType) : Bool := t == .c32

/-- Elements that hold integers only. -/
def isInteger (t : ElementType) : Bool := t == .i8 || t == .i32

/-! ## One part -/

/-- The encoding of a real number: a float format or a two's complement integer. -/
inductive Encoding where
  | float (format : FloatFormat)
  | integer

/-- How an element, or each part of a complex one, is encoded. -/
def encoding : ElementType → Encoding
  | .f32 | .c32 => .float .binary32
  | .f16 => .float .binary16
  | .bf16 => .float .brain16
  | .f8e4m3 => .float .e4m3
  | .f8e5m2 => .float .e5m2
  | .i8 | .i32 => .integer

/-- The bits of an element, or of each part of a complex one. -/
def partBits (t : ElementType) : Nat := if t.isComplex then t.bits / 2 else t.bits

/-- The number that the rounding to a type starts from. -/
def approach (t : ElementType) (x : Float) : FloatValue :=
  match t with
  | .f16 => FloatFormat.binary32.round (.ofFloat x)
  | .bf16 =>
    if x.isNaN then .nan
    else FloatFormat.binary64.decode (x.toBits.toNat / 2 ^ (32 : Nat) * 2 ^ (32 : Nat))
  | _ => .ofFloat x

/-- The code of a real number. -/
def encodePart (t : ElementType) (x : Float) : Nat :=
  match t.encoding with
  | .float format => format.encode (t.approach x)
  | .integer =>
    let bound : Int := 2 ^ (t.partBits - 1)
    (((t.approach x).toIntWithin .toEven (-bound) (bound - 1)) % 2 ^ t.partBits).toNat

/-- The number that a code of one part stands for. -/
def decodePart (t : ElementType) (code : Nat) : FloatValue :=
  match t.encoding with
  | .float format => format.decode code
  | .integer => .ofInt (Int.bmod code (2 ^ t.partBits))

/-- The largest finite value. -/
def greatest (t : ElementType) : Float :=
  match t.encoding with
  | .float format => format.largest.toFloat
  | .integer => (FloatValue.ofInt (2 ^ (t.partBits - 1) - 1)).toFloat

/-- The smallest positive normal value, the floor of relative comparisons; one for integers. -/
def leastNormal (t : ElementType) : Float :=
  match t.encoding with
  | .float format => format.smallestNormal.toFloat
  | .integer => 1

end ElementType

/-- The stored form of one element. -/
abbrev Code (t : ElementType) := BitVec t.bits

namespace ElementType

/-! ## Rounding and widening -/

/-- Rounds a number to an element. -/
def encode (t : ElementType) (z : ComplexFloat) : Code t :=
  if t.isComplex then
    BitVec.ofNat _ (t.encodePart z.re + 2 ^ t.partBits * t.encodePart z.im)
  else BitVec.ofNat _ (t.encodePart z.re)

/-- The number an element stands for. -/
def decode (t : ElementType) (code : Code t) : ComplexFloat :=
  if t.isComplex then
    ⟨(t.decodePart (code.toNat % 2 ^ t.partBits)).toFloat,
      (t.decodePart (code.toNat / 2 ^ t.partBits)).toFloat⟩
  else .ofReal (t.decodePart code.toNat).toFloat

/-- The number an element holds after `z` has been stored in it. -/
def quantize (t : ElementType) (z : ComplexFloat) : ComplexFloat := t.decode (t.encode z)

/-- Equality of elements as their type has it: 8-bit floats and integers are equal if their codes
are, other floats if their values are. -/
def sameElement (t : ElementType) (x y : Code t) : Bool :=
  match t with
  | .f32 | .f16 | .bf16 | .c32 => (decode _ x).eqv (decode _ y)
  | .f8e4m3 | .f8e5m2 | .i8 | .i32 => x == y

end ElementType

end FusedGemm
