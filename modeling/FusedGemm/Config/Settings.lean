import FusedGemm.Config.Basic

/-!
# Building configurations

A configuration is built from a list of settings, each of which replaces some fields.  The order of
an operand can also be declared by the stride that a kernel has: declared strides are classified
when the configuration is built, after all other settings, and in the order in which they were
given.
-/

namespace FusedGemm

/-- A setting of a configuration. -/
inductive Setting where
  /-- The type of all operands, outputs and scalars but the tracked maxima. -/
  | types (type : ElementType)
  | inputTypes (a b : ElementType)
  | typeC (type : ElementType)
  | typeD (type : ElementType)
  | typeAccumulator (type : ElementType)
  | typeScalar (type : ElementType)
  | typeBias (type : ElementType)
  | typeAux (type : ElementType)
  | typeAbsMax (type : ElementType)
  | orders (a b c d : MatrixOrder)
  | orderAux (order : MatrixOrder)
  /-- The stride that a kernel declares for an operand. -/
  | stride (operand : String) (stride : Stride)
  | fusion (fusion : Fusion)
  | equality (mode : EqualityMode)
  | epsilon (epsilon : Float)
  | scalarLocation (location : ScalarLocation)
  | vectorScale (setting : VectorScale)
  | inputFills (a b c : Fill)
  | fillScale (fill : Fill)
  | fillBias (fill : Fill)
  /-- The fill of all tensors. -/
  | fills (fill : Fill)
  | seed (seed : UInt64)
  | tile (tile : Tile)
  | dumpDirectory (directory : String)
  deriving DecidableEq

namespace MatrixOrder

/-- The order of an operand by its declared stride. -/
def classify (operand : String) (stride : Stride) : Except ConfigError MatrixOrder :=
  match ofStride? stride with
  | some order => .ok order
  | none => .error (.unsupportedStride operand stride)

end MatrixOrder

namespace Config

/-- The configuration with a setting; a declared stride changes nothing yet. -/
def apply (config : Config) : Setting → Config
  | .types type => { config with
      typeA := type, typeB := type, typeC := type, typeD := type, typeAccumulator := type,
      typeScalar := type, typeBias := type, typeAux := type }
  | .inputTypes a b => { config with typeA := a, typeB := b }
  | .typeC type => { config with typeC := type }
  | .typeD type => { config with typeD := type }
  | .typeAccumulator type => { config with typeAccumulator := type }
  | .typeScalar type => { config with typeScalar := type }
  | .typeBias type => { config with typeBias := type }
  | .typeAux type => { config with typeAux := type }
  | .typeAbsMax type => { config with typeAbsMax := type }
  | .orders a b c d => { config with orderA := a, orderB := b, orderC := c, orderD := d }
  | .orderAux order => { config with orderAux := order }
  | .stride _ _ => config
  | .fusion fusion => { config with fusion := fusion }
  | .equality mode => { config with equality := mode }
  | .epsilon epsilon => { config with epsilon := epsilon }
  | .scalarLocation location => { config with scalarLocation := location }
  | .vectorScale setting => { config with vectorScale := setting }
  | .inputFills a b c => { config with fillA := a, fillB := b, fillC := c }
  | .fillScale fill => { config with fillScale := fill }
  | .fillBias fill => { config with fillBias := fill }
  | .fills fill => { config with
      fillA := fill, fillB := fill, fillC := fill, fillScale := fill, fillBias := fill }
  | .seed seed => { config with seed := seed }
  | .tile tile => { config with tile := tile }
  | .dumpDirectory directory => { config with dumpDirectory := some directory }

/-- How the order of an operand is set, if there is such an operand. -/
def orderSetter? (config : Config) (operand : String) : Option (MatrixOrder → Config) :=
  if operand = "A" then some fun order => { config with orderA := order }
  else if operand = "B" then some fun order => { config with orderB := order }
  else if operand = "C" then some fun order => { config with orderC := order }
  else if operand = "D" then some fun order => { config with orderD := order }
  else if operand = "Aux" then some fun order => { config with orderAux := order }
  else none

/-- The configuration with the order that a declared stride has.  An unknown operand is reported
before an unsupported stride. -/
def declare (config : Config) (declared : String × Stride) : Except ConfigError Config :=
  match config.orderSetter? declared.1 with
  | none => .error (.unknownOperand declared.1)
  | some set => set <$> MatrixOrder.classify declared.1 declared.2

/-- The strides that settings declare, in order. -/
def declaredStrides (settings : List Setting) : List (String × Stride) :=
  settings.filterMap fun
    | .stride operand stride => some (operand, stride)
    | _ => none

/-- The configuration that settings build, if nothing is wrong with it. -/
def build (settings : List Setting) : Except ConfigError Config := do
  let config ← (declaredStrides settings).foldlM declare (settings.foldl apply {})
  config.validate

end Config

end FusedGemm
