import FusedGemm.Check.Equality
import FusedGemm.Fusion.Broadcast
import FusedGemm.Fusion.Features
import FusedGemm.Tensor.Fill

/-!
# Configurations

A `Config` is what stays fixed for the problems that a kernel is tried on.  `Config.fault?` is the
first thing wrong with a configuration; one without is *valid*.
-/

namespace FusedGemm

/-- The extents of the tile that a kernel works on at a time. -/
structure Tile where
  m : Nat
  n : Nat
  k : Nat
  deriving DecidableEq

/-- The configuration of a test bed. -/
structure Config where
  typeA : ElementType := .f32
  typeB : ElementType := .f32
  typeC : ElementType := .f32
  typeD : ElementType := .f32
  typeAccumulator : ElementType := .f32
  typeScalar : ElementType := .f32
  typeBias : ElementType := .f32
  typeAux : ElementType := .f32
  typeAbsMax : ElementType := .f32
  orderA : MatrixOrder := .rowMajor
  orderB : MatrixOrder := .columnMajor
  orderC : MatrixOrder := .rowMajor
  orderD : MatrixOrder := .rowMajor
  orderAux : MatrixOrder := .rowMajor
  fusion : Fusion := {}
  equality : EqualityMode := .exact
  /-- The tolerance of relative comparisons. -/
  epsilon : Float := defaultEpsilon
  scalarLocation : ScalarLocation := .host
  vectorScale : VectorScale := .disabled
  fillA : Fill := .uniform
  fillB : Fill := .uniform
  fillC : Fill := .uniform
  fillScale : Fill := .uniform
  fillBias : Fill := .uniform
  seed : UInt64 := 4096
  /-- The tile of the kernel, which only names dump files. -/
  tile : Tile := ⟨128, 128, 64⟩
  /-- Where failed comparisons are dumped, if anywhere. -/
  dumpDirectory : Option String := none
  deriving DecidableEq

namespace Config

variable (config : Config)

/-- The active features of the epilogue. -/
def capabilities : Capabilities := .ofFusion config.fusion config.typeD config.typeAux

/-- How outputs are compared. -/
def comparison : Except ConfigError Comparison :=
  Comparison.ofMode config.equality config.epsilon

/-- The activation of the epilogue. -/
def activation : Activation := config.fusion.activation

/-- What alpha and beta depend on. -/
def broadcast : Broadcast :=
  .select config.capabilities.rowScale config.scalarLocation config.vectorScale

/-- The seed of a tensor, by its distance from the base seed; it wraps around. -/
def seedAt (offset : UInt64) : UInt64 := config.seed + offset

/-- The first complex type among those that an epilogue computes with. -/
def complexType? : Option ElementType :=
  [config.typeC, config.typeD, config.typeAccumulator, config.typeScalar].find?
    ElementType.isComplex

/-- The first thing wrong with a configuration. -/
def fault? : Option ConfigError :=
  if config.fusion.rowBias && config.fusion.biasGradient then some .biasWithGradient
  else if config.fusion.auxIn && config.fusion.auxOut then some .auxInWithAuxOut
  else match (if config.fusion.declaresFeature then config.complexType? else none) with
    | some type => some (.complexEpilogue type)
    | none => match config.comparison with
      | .error e => some e
      | .ok _ => none

/-- Nothing is wrong with a configuration. -/
def Valid : Prop := config.fault? = none

instance : Decidable config.Valid := inferInstanceAs (Decidable (_ = _))

/-- The configuration itself, if nothing is wrong with it. -/
def validate : Except ConfigError Config :=
  match config.fault? with
  | some e => .error e
  | none => .ok config

end Config

end FusedGemm
