import FusedGemm.Tensor.Text
import FusedGemm.Trial.Case

/-!
# Dumps

The dump of a case shows everything that a failed comparison can be traced with: the problem, the
inputs, and each output next to its reference.
-/

namespace FusedGemm

/-- A file to be written. -/
structure Dump where
  fileName : String
  text : String
  deriving DecidableEq

namespace Dump

/-- The name of the dump file of a problem, for a kernel with the given tile. -/
def nameFor (p : Problem) (tile : Tile) : String :=
  "error_Gemm_device_" ++ p.text ++ "_" ++ tile.m.repr ++ "_" ++ tile.n.repr ++ "_" ++
    tile.k.repr ++ ".txt"

end Dump

namespace Case

variable (case : Case)

/-- The line with the problem and the scalars. -/
def headerText : String :=
  let p := case.problem
  "problem: " ++ p.m.repr ++ "x" ++ p.n.repr ++ "x" ++ p.k.repr ++ ", batch count: " ++
    p.batch.repr ++ ", alpha: " ++ plainText case.alpha ++ ", beta: " ++ plainText case.beta ++
    "\n\n"

/-- The two operands of the product. -/
def operandText : String :=
  "A =\n" ++ case.operands.a.host.text ++ "\n\nB =\n" ++ case.operands.b.host.text ++ "\n\n"

/-- The scale factors of the operands. -/
def factorText : String :=
  match case.operands.scale with
  | some s =>
    "scale_a: " ++ plainText (factorOf s.a) ++ ", scale_b: " ++ plainText (factorOf s.b) ++
      ", scale_c: " ++ plainText (factorOf s.c) ++ "\n"
  | none => ""

/-- Alpha and beta; their names tell whether they may differ from row to row. -/
def scalarText : String :=
  let mark := if case.config.capabilities.rowScale then "v" else ""
  "\n" ++ mark ++ "alpha =\n" ++ case.operands.alpha.host.text ++ "\n" ++ mark ++ "beta =\n" ++
    case.operands.beta.host.text ++ "\n"

/-- A running maximum, after the scale factor of its output. -/
def absMaxText (channel : Channel) (factorName : String) (factor : Option Staged) : String :=
  match case.reference.get? channel, case.outputs.get? channel with
  | some expected, some actual =>
    let factorLine := match factor with
      | some staged => factorName ++ ": " ++ plainText (factorOf staged) ++ "\n"
      | none => ""
    factorLine ++ "Reference " ++ channel.name ++ ": " ++ plainText (expected.read .origin).re ++
      "\nComputed " ++ channel.name ++ ": " ++ plainText (actual.read .origin).re ++ "\n\n"
  | _, _ => ""

/-- An input that not every epilogue has. -/
def inputText (title : String) : Option Staged → String
  | some staged => "\n" ++ title ++ " =\n" ++ staged.host.text
  | none => ""

/-- An output that not every epilogue has, after its reference. -/
def outputText (channel : Channel) : String :=
  match case.reference.get? channel, case.outputs.get? channel with
  | some expected, some actual =>
    "\nReference " ++ channel.name ++ " =\n" ++ expected.text ++ "\nComputed " ++ channel.name ++
      " =\n" ++ actual.text
  | _, _ => ""

/-- The summand and the product. -/
def productText : String :=
  "\nC =\n" ++ case.operands.c.host.text ++ "\nReference =\n" ++ case.reference.d.text ++
    "\nComputed =\n" ++ case.outputs.d.text

/-- The dump of a case. -/
def dump : Dump where
  fileName := Dump.nameFor case.problem case.config.tile
  text :=
    case.headerText ++ case.operandText ++ case.factorText ++ case.scalarText ++
      case.absMaxText .absMaxD "scale_d" (case.operands.scale.map Scales.d) ++
      case.absMaxText .absMaxAux "scale_aux" (case.operands.scale.bind Scales.aux) ++
      inputText "Bias" case.operands.bias ++ inputText "Aux Input" case.operands.auxIn ++
      case.outputText .biasGradient ++ case.outputText .aux ++ case.productText

end Case

end FusedGemm
