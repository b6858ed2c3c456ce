import FusedGemm.Config.Error
import FusedGemm.Tensor.Basic

/-!
# Equality of tensors

Two tensors are compared coordinate by coordinate: in the exact mode their codes have to be the
same, in the relative mode their values may differ by a fraction of the larger one.  Complex
elements compare exactly in both modes.  `Comparison.mismatches` counts the coordinates at which
two tensors differ and names the first.
-/

namespace FusedGemm

/-! ## Modes and tolerances -/

/-- How elements are compared. -/
inductive EqualityMode where
  | exact
  | relative
  deriving DecidableEq

namespace EqualityMode

/-- Both modes. -/
def all : List EqualityMode := [.exact, .relative]

/-- The name of a mode in configurations. -/
def name : EqualityMode → String
  | .exact => "Exact"
  | .relative => "Relative"

end EqualityMode

/-- The tolerance of relative comparisons when none is given. -/
def defaultEpsilon : Float := 0.1

/-- How two tensors are compared: by their codes, or by their values with a tolerance. -/
inductive Comparison where
  | exact
  | relative (epsilon : Float)
  deriving DecidableEq

/-- How two tensors differ. -/
structure Mismatches where
  count : Nat
  /-- The first coordinate at which they differ, in batch, row, column order. -/
  first : Option Coord
  deriving DecidableEq

/-- The difference of two numbers is at most `epsilon` times the larger of them, or of `floor` where
both are small.  Equal numbers compare equal; infinities and NaN equal nothing else. -/
def withinTolerance (a b epsilon floor : Float) : Bool :=
  if a == b then true
  else if !a.isFinite || !b.isFinite then false
  else (a - b).abs ≤ epsilon * maxNumber (maxNumber a.abs b.abs) floor

namespace Comparison

/-- A comparison with a tolerance, which has to be finite and not negative. -/
def within (epsilon : Float) : Except ConfigError Comparison :=
  if !epsilon.isFinite || epsilon < 0.0 then .error (.invalidEpsilon epsilon)
  else .ok (.relative epsilon)

/-- The comparison of a mode, which may need a tolerance. -/
def ofMode (mode : EqualityMode) (epsilon : Float) : Except ConfigError Comparison :=
  match mode with
  | .exact => .ok .exact
  | .relative => within epsilon

/-- The mode of a comparison. -/
def mode : Comparison → EqualityMode
  | .exact => .exact
  | .relative _ => .relative

/-- The tolerance of a comparison, where it uses one. -/
def epsilon : Comparison → Float
  | .exact => defaultEpsilon
  | .relative epsilon => epsilon

/-! ## Two tensors -/

variable (comparison : Comparison)

/-- Two elements whose codes differ count as equal: their values are close, and closeness counts. -/
def tolerates (expected actual : Tensor) (c : Coord) : Bool :=
  match comparison with
  | .exact => false
  | .relative epsilon =>
    !expected.type.isComplex &&
      withinTolerance (expected.read c).re (actual.read c).re epsilon expected.type.leastNormal

/-- Two tensors of the same type have equal elements at a coordinate. -/
def sameAt (expected actual : Tensor) (c : Coord) : Bool :=
  expected.sameCode (expected.layout.offset c) actual (actual.layout.offset c) ||
    comparison.tolerates expected actual c

/-- The coordinates at which two tensors of the same type and extent differ. -/
def differing (expected actual : Tensor) : List Coord :=
  expected.extent.coords.filter fun c => !comparison.sameAt expected actual c

/-- How two tensors differ.  Tensors of different types or extents differ everywhere, and at least
once. -/
def mismatches (expected actual : Tensor) : Mismatches :=
  if expected.type = actual.type ∧ expected.extent = actual.extent then
    let differing := comparison.differing expected actual
    ⟨differing.length, differing.head?⟩
  else ⟨max (max expected.count actual.count) 1, none⟩

/-- Two tensors are equal everywhere. -/
def agree (expected actual : Tensor) : Bool := (comparison.mismatches expected actual).count == 0

end Comparison

end FusedGemm
