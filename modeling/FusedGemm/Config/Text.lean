import FusedGemm.Config.Basic
import FusedGemm.Json.Codec
import FusedGemm.Json.Reader

/-!
# Configuration files

A configuration is written as a JSON object with a member for each field.  A file that is read may
leave out fields, which then have their default values.
-/

namespace FusedGemm

namespace Fusion

/-- The fields of a fusion. -/
def fields : List (Field Fusion) :=
  [.of "per_row_bias" .bool rowBias fun x f => { f with rowBias := x },
   .of "de_per_row_bias" .bool biasGradient fun x f => { f with biasGradient := x },
   .of "per_row_scale" .bool rowScale fun x f => { f with rowScale := x },
   .of "scale_factor" .bool scaleFactors fun x f => { f with scaleFactors := x },
   .of "aux_in" .bool auxIn fun x f => { f with auxIn := x },
   .of "aux_out" .bool auxOut fun x f => { f with auxOut := x },
   .of "abs_max" .bool absMax fun x f => { f with absMax := x },
   .of "activation" (.named Activation.all Activation.name) activation
     fun x f => { f with activation := x }]

/-- Fusions as JSON. -/
def codec : Codec Fusion := .record fields {}

end Fusion

namespace Tile

/-- Tiles as JSON: an array of the three extents. -/
def codec : Codec Tile where
  write t := .array ([t.m, t.n, t.k].map Codec.word.write)
  read
    | .array [m, n, k] => do
      return ⟨← Codec.word.read m, ← Codec.word.read n, ← Codec.word.read k⟩
    | _ => none

end Tile

namespace Config

/-- Element types as JSON. -/
def typeCodec : Codec ElementType := .named ElementType.all ElementType.name

/-- Matrix orders as JSON. -/
def orderCodec : Codec MatrixOrder := .named MatrixOrder.all MatrixOrder.name

/-- Fills as JSON. -/
def fillCodec : Codec Fill := .named Fill.all Fill.name

/-- Seeds as JSON. -/
def seedCodec : Codec UInt64 where
  write seed := Codec.word.write seed.toNat
  read v := (Codec.word.read v).map UInt64.ofNat

/-- The fields of a configuration. -/
def fields : List (Field Config) :=
  [.of "element_a" typeCodec typeA fun x c => { c with typeA := x },
   .of "element_b" typeCodec typeB fun x c => { c with typeB := x },
   .of "element_c" typeCodec typeC fun x c => { c with typeC := x },
   .of "element_d" typeCodec typeD fun x c => { c with typeD := x },
   .of "element_accumulator" typeCodec typeAccumulator fun x c => { c with typeAccumulator := x },
   .of "element_scalar" typeCodec typeScalar fun x c => { c with typeScalar := x },
   .of "element_bias" typeCodec typeBias fun x c => { c with typeBias := x },
   .of "element_aux" typeCodec typeAux fun x c => { c with typeAux := x },
   .of "element_amax" typeCodec typeAbsMax fun x c => { c with typeAbsMax := x },
   .of "layout_a" orderCodec orderA fun x c => { c with orderA := x },
   .of "layout_b" orderCodec orderB fun x c => { c with orderB := x },
   .of "layout_c" orderCodec orderC fun x c => { c with orderC := x },
   .of "layout_d" orderCodec orderD fun x c => { c with orderD := x },
   .of "layout_aux" orderCodec orderAux fun x c => { c with orderAux := x },
   .of "fusion" Fusion.codec fusion fun x c => { c with fusion := x },
   .of "check_equality" (.named EqualityMode.all EqualityMode.name) equality
     fun x c => { c with equality := x },
   .of "epsilon" .float epsilon fun x c => { c with epsilon := x },
   .of "scalar_location" (.named ScalarLocation.all ScalarLocation.name) scalarLocation
     fun x c => { c with scalarLocation := x },
   .of "vector_scale" (.named VectorScale.all VectorScale.name) vectorScale
     fun x c => { c with vectorScale := x },
   .of "init_a" fillCodec fillA fun x c => { c with fillA := x },
   .of "init_b" fillCodec fillB fun x c => { c with fillB := x },
   .of "init_c" fillCodec fillC fun x c => { c with fillC := x },
   .of "init_scale" fillCodec fillScale fun x c => { c with fillScale := x },
   .of "init_bias" fillCodec fillBias fun x c => { c with fillBias := x },
   .of "seed" seedCodec seed fun x c => { c with seed := x },
   .of "tile_shape" Tile.codec tile fun x c => { c with tile := x },
   .of "dump_dir" .optionalString dumpDirectory fun x c => { c with dumpDirectory := x }]

/-- Configurations as JSON. -/
def codec : Codec Config := .record fields {}

/-- The text of a configuration. -/
def text (config : Config) : String := (codec.write config).text

end Config

/-- Why a configuration file is refused. -/
inductive ConfigTextError where
  /-- The text is not JSON or does not describe a configuration. -/
  | malformed
  | invalid (error : ConfigError)

namespace Config

/-- Reads a configuration, which may have faults. -/
def ofText? (text : String) : Option Config := (Json.parse? text).bind codec.read

/-- Reads a configuration without faults. -/
def parse (text : String) : Except ConfigTextError Config :=
  match ofText? text with
  | none => .error .malformed
  | some config =>
    match config.validate with
    | .ok config => .ok config
    | .error e => .error (.invalid e)

end Config

end FusedGemm
