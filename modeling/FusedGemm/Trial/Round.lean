import FusedGemm.Trial.Dump

/-!
# Rounds

A round tries a kernel on one problem: the case is materialized, the kernel is launched stage by
stage, its outputs are copied back, and they are compared with the reference.  `Round.run` has an
`Outcome` unless the case could not be made or the device failed beyond recovery.  `Round.runAll`
uses one kernel and one device for several rounds.  Whatever happens, the case and the kernel's
scratch buffer are given back.
-/

namespace FusedGemm

/-! ## Outcomes -/

/-- The stages of a launch that can fail. -/
inductive Stage where
  | prepare
  | run
  deriving DecidableEq

namespace Stage

/-- The name of a stage in texts. -/
def name : Stage → String
  | .prepare => "Initialize"
  | .run => "Run"

end Stage

/-- What came out of a round. -/
inductive Outcome where
  | passed (report : Report)
  /-- The comparison failed; with a dump directory there is a dump to be written there. -/
  | mismatch (report : Report) (dump : Option Dump)
  /-- The kernel does not support the arguments. -/
  | skipped (status : KernelStatus)
  | kernelFailed (stage : Stage) (status : KernelStatus)
  /-- The device failed after the launch and can be used further. -/
  | deviceFailed (error : DeviceError)
  deriving DecidableEq

namespace Outcome

/-- The comparison was made and passed. -/
def isPassed : Outcome → Bool
  | .passed _ => true
  | _ => false

/-- The kernel was not tried. -/
def isSkipped : Outcome → Bool
  | .skipped _ => true
  | _ => false

/-- The report of the comparison, if it was made. -/
def report? : Outcome → Option Report
  | .passed report => some report
  | .mismatch report _ => some report
  | _ => none

/-- The dump to be written, if any. -/
def dump? : Outcome → Option Dump
  | .mismatch _ dump => dump
  | _ => none

/-- The text of an outcome. -/
def text : Outcome → String
  | .passed _ => "passed"
  | .mismatch report _ =>
    "mismatch in " ++ ", ".intercalate (report.failedChannels.map Channel.name)
  | .skipped status => "skipped: " ++ status.message
  | .kernelFailed stage status => "kernel failed during " ++ stage.name ++ ": " ++ status.message
  | .deviceFailed e => "device failure: " ++ e.message

end Outcome

namespace Case

variable (case : Case)

/-- The dump of a failed comparison, where dumps are asked for. -/
def dumpFor (report : Report) : Option Dump :=
  if report.passed then none else case.config.dumpDirectory.map fun _ => case.dump

/-- Computes the reference and compares: the new case, the report, and the dump to be written. -/
def verify : Case × Report × Option Dump :=
  let computed := case.withReference
  let report := computed.compare
  (computed, report, computed.dumpFor report)

/-- The outcome of a comparison. -/
def outcome : Outcome :=
  let (_, report, dump) := case.verify
  if report.passed then .passed report else .mismatch report dump

end Case

/-! ## Rounds -/

/-- What is tried in one round. -/
structure Round where
  problem : Problem
  alpha : Float
  beta : Float

namespace Round

variable {σ : Type} (kernel : Kernel σ)

/-- What a device error after the launch amounts to. -/
def deviceFailure (e : DeviceError) : Except Failure Outcome :=
  if e.isFatal then .error (.device e) else .ok (.deviceFailed e)

/-- Waits for the kernel, copies its outputs back and verifies them. -/
def collect (case : Case) (device : Device) : Except Failure Outcome × Device :=
  match device.synchronize with
  | (some e, device') => (deviceFailure e, device')
  | (none, device') =>
    match case.pullOutputs device' with
    | (some e, _) => (deviceFailure e, device')
    | (none, pulled) => (.ok pulled.outcome, device')

/-- Prepares and runs the kernel, and collects its outputs. -/
def launchWith (case : Case) (launch : Launch) (workspace : Pointer) (s : σ) (device : Device) :
    Except Failure Outcome × σ × Device :=
  let prepared := kernel.prepareOn s launch workspace device
  match kernel.prepare s launch workspace with
  | (status, s₁) =>
    if !status.isSuccess then (.ok (.kernelFailed .prepare status), s₁, prepared)
    else match kernel.run s₁ prepared with
      | (status, s₂, device₁) =>
        if !status.isSuccess then (.ok (.kernelFailed .run status), s₂, device₁)
        else
          let (result, device₂) := collect case device₁
          (result, s₂, device₂)

/-- Launches the kernel with a scratch buffer, if it supports the arguments. -/
def attempt (case : Case) (launch : Launch) (s : σ) (device : Device) :
    Except Failure Outcome × σ × Device :=
  let status := kernel.supports s launch
  if !status.isSuccess then (.ok (.skipped status), s, device)
  else match Buffer.allocate (kernel.scratchSize s launch) device with
    | .error e => (.error (.device e), s, device)
    | .ok (workspace, device₁) =>
      let (result, s', device₂) := launchWith kernel case launch workspace.pointer s device₁
      (result, s', device₂.release workspace.pointer)

/-- Launches the kernel on a case. -/
def runCase (case : Case) (s : σ) (device : Device) : Except Failure Outcome × σ × Device :=
  match case.arguments with
  | .error e => (.error e, s, device)
  | .ok launch => attempt kernel case launch s device

/-- Tries the kernel on one problem. -/
def run (config : Config) (r : Round) (s : σ) (device : Device) :
    Except Failure Outcome × σ × Device :=
  match Case.setUp config r.problem r.alpha r.beta device with
  | (.error e, device₁) => (.error e, s, device₁)
  | (.ok case, device₁) =>
    let (result, s', device₂) := runCase kernel case s device₁
    (result, s', case.release device₂)

/-- Tries the kernel on one problem after the other: each result, with the device after it. -/
def runAll (config : Config) : List Round → σ → Device → List (Except Failure Outcome × Device)
  | [], _, _ => []
  | r :: rest, s, device =>
    let (result, s', device') := run kernel config r s device
    (result, device') :: runAll config rest s' device'

end Round

end FusedGemm
