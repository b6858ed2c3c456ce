import FusedGemm.Random.Draw
import FusedGemm.Tensor.Basic

/-!
# Initial contents of tensors

A `Fill` says what a tensor holds before a run.  `uniform`, `gaussian`, `sequential` and `ones` set
the storage elements one after the other, whatever the layout: the contents of a tensor are the
first elements of a stream that depends on the element type and the seed alone (`Fill.stream`).
`identity` goes by coordinates.
-/

namespace FusedGemm

/-- How a tensor is filled. -/
inductive Fill where
  /-- Integers of a range that depends on the width of the elements. -/
  | uniform
  /-- The normal distribution with mean 0 and standard deviation one half. -/
  | gaussian
  /-- Ones on the diagonal of every batch and zeros elsewhere. -/
  | identity
  /-- Each storage element holds its own index. -/
  | sequential
  | ones
  deriving DecidableEq

namespace Fill

/-- All fills. -/
def all : List Fill := [.uniform, .gaussian, .identity, .sequential, .ones]

/-- The name of a fill in configurations. -/
def name : Fill → String
  | .uniform => "Uniform"
  | .gaussian => "Gaussian"
  | .identity => "Identity"
  | .sequential => "Sequential"
  | .ones => "AllOnes"

/-! ## Streams -/

/-- The ends of the range that uniform integers are drawn from. -/
def uniformRange (type : ElementType) : Float × Float :=
  if type.bits ≤ 8 then (-1, 1) else (-4, 4)

/-- A drawn element: one number, or two where the type is complex. -/
def drawElement (type : ElementType) (part : Draw Float) : Draw ComplexFloat := do
  let re ← part
  if type.isComplex then
    let im ← part
    return ⟨re, im⟩
  else return .ofReal re

/-- The next `n` draws. -/
def drawMany {α : Type} (draw : Draw α) : Nat → Generator → List α
  | 0, _ => []
  | n + 1, g => let (x, g') := draw g; x :: drawMany draw n g'

/-- One drawn uniform element. -/
def uniformElement (type : ElementType) : Draw ComplexFloat :=
  let (low, high) := uniformRange type
  drawElement type (Draw.uniformInteger low high)

/-- One drawn normal element. -/
def gaussianElement (type : ElementType) : Draw ComplexFloat :=
  drawElement type ((0.5 * ·) <$> Draw.standardNormal)

/-- The first `n` elements that a fill sets in storage order, where it goes by storage order. -/
def stream (fill : Fill) (type : ElementType) (seed : UInt64) (n : Nat) : List ComplexFloat :=
  match fill with
  | .uniform => drawMany (uniformElement type) n (Generator.ofSeed seed)
  | .gaussian => drawMany (gaussianElement type) n (Generator.ofSeed seed)
  | .identity => List.replicate n .zero
  | .sequential => (List.range n).map fun i => .ofReal (Float.ofNat i)
  | .ones => List.replicate n (.ofReal 1)

/-- The coordinates on the diagonals of all batches, up to the shorter side. -/
def diagonal (e : Extent) : List Coord :=
  let side := min e.rows e.cols
  (List.range (e.batch * side)).map fun n => ⟨n % side, n % side, n / side⟩

end Fill

namespace Tensor

/-- The tensor whose storage holds the first elements of a fill's stream. -/
def ofStream (t : Tensor) (fill : Fill) (seed : UInt64) : Tensor :=
  t.withCodes ((fill.stream t.type seed t.codes.size).map t.type.encode).toArray

/-- The tensor filled from a seed. -/
def fillFrom (t : Tensor) (fill : Fill) (seed : UInt64) : Tensor :=
  match fill with
  | .identity => (t.ofStream fill seed).writeAll (Fill.diagonal t.extent) fun _ => .ofReal 1
  | _ => t.ofStream fill seed

end Tensor

end FusedGemm
