import FusedGemm.Check.Equality
import FusedGemm.Gemm.Outputs

/-!
# Comparison reports

A report collects what was found on each channel, and the tensors whose norm is not positive, for
which a comparison says nothing.  It passes if every channel agrees and no norm is in doubt.
-/

namespace FusedGemm

/-- What was found on one channel. -/
structure ChannelOutcome where
  channel : Channel
  mismatches : Mismatches
  deriving DecidableEq

namespace ChannelOutcome

/-- The channel agrees everywhere. -/
def passed (o : ChannelOutcome) : Bool := o.mismatches.count == 0

/-- The line of one channel. -/
def text (o : ChannelOutcome) : String :=
  if o.passed then o.channel.name ++ ": ok\n"
  else
    let first := match o.mismatches.first with
      | some c => "Some([" ++ c.row.repr ++ ", " ++ c.col.repr ++ ", " ++ c.batch.repr ++ "])"
      | none => "None"
    o.channel.name ++ ": " ++ o.mismatches.count.repr ++ " mismatches, first at " ++ first ++ "\n"

end ChannelOutcome

/-- A tensor whose norm is not positive. -/
structure NormViolation where
  tensor : String
  norm : Float
  deriving DecidableEq

/-- The result of a comparison. -/
structure Report where
  channels : List ChannelOutcome := []
  violations : List NormViolation := []
  deriving DecidableEq

namespace Report

variable (report : Report)

/-- The report with the comparison of one channel. -/
def check (channel : Channel) (comparison : Comparison) (expected actual : Tensor) : Report :=
  { report with channels := report.channels ++ [⟨channel, comparison.mismatches expected actual⟩] }

/-- The report with a violation, unless the norm of the tensor is positive. -/
def requirePositiveNorm (t : Tensor) : Report :=
  let norm := t.norm
  if 0.0 < norm then report
  else { report with violations := report.violations ++ [⟨t.name, norm⟩] }

/-- Every channel agrees and no norm is in doubt. -/
def passed : Bool := report.violations.isEmpty && report.channels.all ChannelOutcome.passed

/-- What was found on a channel first, if it was compared. -/
def find? (channel : Channel) : Option ChannelOutcome :=
  report.channels.find? fun o => o.channel == channel

/-- The channels that do not agree. -/
def failedChannels : List Channel :=
  (report.channels.filter fun o => !o.passed).map ChannelOutcome.channel

/-- The text of a report: a line for each channel and each violation. -/
def text : String :=
  String.join (report.channels.map ChannelOutcome.text) ++
    String.join (report.violations.map fun v =>
      "norm of " ++ v.tensor ++ " is " ++ plainText v.norm ++ "\n")

end Report

end FusedGemm
