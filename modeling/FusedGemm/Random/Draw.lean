import FusedGemm.Numeric.Binary64
import FusedGemm.Random.Generator
import FusedGemm.Random.NormalStrips

/-!
# Random numbers

`uniformInteger` draws from the integers of a closed range, its ends half as often as the others:
a number of the range is drawn uniformly and rounded.  `standardNormal` draws from the normal
distribution with mean 0 and variance 1 by the strips of `NormalStrips`: a strip and a point of it
are drawn, and points above the density are thrown away.

Throwing points away has no bound, so `standardNormal` takes turns (`normalTurn`) until one of them
finds a number.  What it gives is specified for the generators that let it find one.
-/

namespace FusedGemm

/-- A computation that draws from the generator. -/
abbrev Draw (α : Type) := StateM Generator α

namespace Draw

/-- The next word. -/
def word : Draw UInt64 := fun g => g.next

/-- The float `(1 + m / 2 ^ 52) * 2 ^ e` where `m` are the upper 52 bits of a word. -/
def mantissa (e : UInt64) (w : UInt64) : Float := Float.ofBits ((1023 + e) <<< 52 ||| w >>> 12)

/-- A number of the range from `low` to `high`. -/
def uniform (low high : Float) : Draw Float := do
  let w ← word
  return (mantissa 0 w - 1.0) * (high - low) + low

/-- An integer of the range from `low` to `high`, both ends included. -/
def uniformInteger (low high : Float) : Draw Float := roundAway <$> uniform low high

/-- A number of the range from 0 to 1, without either end. -/
def openUnit : Draw Float := do
  let w ← word
  return mantissa 0 w - Float.ofBits 0x3fefffffffffffff

/-- A number of the range from 0 to 1, without the upper end. -/
def unit : Draw Float := do
  let w ← word
  return (w >>> 11).toFloat * Float.ofBits 0x3ca0000000000000

/-- Where a number of the normal distribution is looked for. -/
inductive NormalRegion where
  /-- All strips. -/
  | strips
  /-- The tail on the side of `u`. -/
  | tail (u : Float)

/-- A turn: a point of the region, if it is under the density, or else where to go on.  The lowest
strip is left for the tail, and the tail is not left again. -/
def normalTurn : NormalRegion → Draw (NormalRegion ⊕ Float)
  | .strips => do
    let w ← word
    let strip := (w &&& 255).toNat
    let u := mantissa 1 w - 3.0
    let x := u * NormalStrips.edge strip
    if x.abs < NormalStrips.edge (strip + 1) then return .inr x
    else if strip = 0 then return .inl (.tail u)
    else do
      let v ← unit
      let low := NormalStrips.height (strip + 1)
      let level := low + (NormalStrips.height strip - low) * v
      if level < ((-x * x) / 2.0).exp then return .inr x else return .inl .strips
  | .tail u => do
    let first ← openUnit
    let second ← openUnit
    let x := first.log / NormalStrips.tailStart
    let y := second.log
    if -2.0 * y < x * x then return .inl (.tail u)
    else return .inr (if u < 0.0 then x - NormalStrips.tailStart else NormalStrips.tailStart - x)

/-- A number of the normal distribution with mean 0 and variance 1. -/
def standardNormal : Draw Float := repeatM normalTurn .strips

end Draw

end FusedGemm
