import FusedGemm.Element
import FusedGemm.Tensor.Layout

/-!
# Tensors

A `Tensor` is a named array of element codes with a layout.  It is read and written either at a
storage index (`get`, `put`) or at a coordinate (`read`, `write`); a value is rounded to the element
type when it is stored and widened when it is read.

These four are total: outside the storage they read zero and write nothing.  Their checked forms
(`get?`, `put?`, `read?`, `write?`) answer nothing there.  A tensor made by `zeros` has as many
elements as its layout spans, so every coordinate of its extent is inside.
-/

namespace FusedGemm

/-- A named array of elements with a layout. -/
structure Tensor where
  name : String
  type : ElementType
  layout : Layout
  codes : Array (Code type)

namespace Tensor

/-- The tensor whose storage holds zeros for all that `layout` reaches. -/
def zeros (name : String) (type : ElementType) (layout : Layout) : Tensor :=
  ⟨name, type, layout, Array.replicate layout.span 0⟩

/-- A packed tensor of zeros, if the number of its bytes is addressable. -/
def packed? (name : String) (type : ElementType) (order : MatrixOrder) (extent : Extent) :
    Option Tensor := do
  let layout ← order.packed? extent
  let span ← layout.span?
  let _ ← AddressSpace.mul? span type.size
  some (zeros name type layout)

variable (t : Tensor)

/-- The extent of the layout. -/
def extent : Extent := t.layout.extent

/-- The number of coordinates. -/
def count : Nat := t.extent.count

/-- The number of bytes of the storage. -/
def byteSize : Nat := t.codes.size * t.type.size

/-! ## Reading and writing -/

/-- The element at a storage index. -/
def get (i : Nat) : ComplexFloat := t.type.decode (t.codes.getD i 0)

/-- Stores a number at a storage index. -/
def put (i : Nat) (z : ComplexFloat) : Tensor :=
  ⟨t.name, t.type, t.layout, t.codes.setIfInBounds i (t.type.encode z)⟩

/-- The element at a coordinate. -/
def read (c : Coord) : ComplexFloat := t.get (t.layout.offset c)

/-- Stores a number at a coordinate. -/
def write (c : Coord) (z : ComplexFloat) : Tensor := t.put (t.layout.offset c) z

/-- The element at a storage index, if there is one. -/
def get? (i : Nat) : Option ComplexFloat := if i < t.codes.size then some (t.get i) else none

/-- Stores a number at a storage index, if there is one. -/
def put? (i : Nat) (z : ComplexFloat) : Option Tensor :=
  if i < t.codes.size then some (t.put i z) else none

/-- The element at a coordinate, if its offset is in the storage. -/
def read? (c : Coord) : Option ComplexFloat := t.get? (t.layout.offset c)

/-- Stores a number at a coordinate, if its offset is in the storage. -/
def write? (c : Coord) (z : ComplexFloat) : Option Tensor := t.put? (t.layout.offset c) z

/-! ## Whole tensors -/

/-- All storage elements set to one real number. -/
def fill (x : Float) : Tensor :=
  ⟨t.name, t.type, t.layout, Array.replicate t.codes.size (t.type.encode (.ofReal x))⟩

/-- The tensor with other storage contents. -/
def withCodes (codes : Array (Code t.type)) : Tensor := ⟨t.name, t.type, t.layout, codes⟩

/-- The storage is large enough for the strides over the given extent. -/
def Covers (extent : Extent) : Prop := (t.layout.withExtent extent).span ≤ t.codes.size

instance (extent : Extent) : Decidable (t.Covers extent) :=
  inferInstanceAs (Decidable (_ ≤ _))

/-- Stores a value of `f` at each of the coordinates. -/
def writeAll (cs : List Coord) (f : Coord → ComplexFloat) : Tensor :=
  cs.foldl (fun t c => t.write c (f c)) t

/-- Copies the elements of another tensor of the same extent, rounding them to this one's type. -/
def copyFrom (source : Tensor) : Tensor := t.writeAll t.extent.coords source.read

/-- `copyFrom` where the extents agree. -/
def copyFrom? (source : Tensor) : Option Tensor :=
  if t.extent = source.extent then some (t.copyFrom source) else none

/-- The square root of the sum of the squared absolute values over all coordinates.  The sum starts
from minus zero, the neutral element of addition. -/
def norm : Float :=
  (t.extent.coords.foldl (fun sum c => sum + (t.read c).normSquared) (-0.0)).sqrt

/-- The elements at two storage indices have the same type and the same code. -/
def sameCode (i : Nat) (other : Tensor) (j : Nat) : Bool :=
  t.type == other.type && (t.codes.getD i 0).toNat == (other.codes.getD j 0).toNat

/-- `sameCode` where both indices are in the storage, which matters only for equal types. -/
def sameCode? (i : Nat) (other : Tensor) (j : Nat) : Option Bool :=
  if t.type ≠ other.type ∨ (i < t.codes.size ∧ j < other.codes.size) then
    some (t.sameCode i other j)
  else none

/-- Equality of names, layouts and elements, the latter as `ElementType.sameElement` has it. -/
def eqv (x y : Tensor) : Bool :=
  x.name == y.name && x.layout == y.layout &&
    if h : x.type = y.type then
      x.codes.size == y.codes.size &&
        (x.codes.toList.zip y.codes.toList).all fun p => y.type.sameElement (h ▸ p.1) p.2
    else false

/-! ## What storing changes -/

@[simp] theorem size_put (i : Nat) (z : ComplexFloat) : (t.put i z).codes.size = t.codes.size := by
  simp [put]

@[simp] theorem size_zeros (name : String) (type : ElementType) (layout : Layout) :
    (zeros name type layout).codes.size = layout.span := by
  simp [zeros]

/-- A number is quantized by being stored. -/
theorem get_put_self {i : Nat} (h : i < t.codes.size) (z : ComplexFloat) :
    (t.put i z).get i = t.type.quantize z := by
  simp [get, put, ElementType.quantize, Array.getD_eq_getD_getElem?, h]

/-- Storing at one index leaves the others alone. -/
theorem get_put_of_ne {i j : Nat} (h : i ≠ j) (z : ComplexFloat) :
    (t.put i z).get j = t.get j := by
  simp [get, put, Array.getD_eq_getD_getElem?, Array.getElem?_setIfInBounds_ne h]

end Tensor

end FusedGemm
