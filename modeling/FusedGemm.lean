import FusedGemm.Check.Equality
import FusedGemm.Check.Report
import FusedGemm.Config.Basic
import FusedGemm.Config.Error
import FusedGemm.Config.Settings
import FusedGemm.Config.Text
import FusedGemm.Device.Buffer
import FusedGemm.Device.Error
import FusedGemm.Device.Memory
import FusedGemm.Element
import FusedGemm.Element.Text
import FusedGemm.Fusion.Activation
import FusedGemm.Fusion.Broadcast
import FusedGemm.Fusion.Features
import FusedGemm.Gemm.Emulation
import FusedGemm.Gemm.Launch
import FusedGemm.Gemm.Outputs
import FusedGemm.Gemm.Problem
import FusedGemm.Gemm.Reference
import FusedGemm.Json.Codec
import FusedGemm.Json.Numeral
import FusedGemm.Json.Reader
import FusedGemm.Json.Value
import FusedGemm.Numeric.AddressSpace
import FusedGemm.Numeric.Binary64
import FusedGemm.Numeric.Complex
import FusedGemm.Numeric.Decimal
import FusedGemm.Numeric.FloatFormat
import FusedGemm.Numeric.Hypotenuse
import FusedGemm.Numeric.Power
import FusedGemm.Numeric.Rounding
import FusedGemm.Random.Draw
import FusedGemm.Random.Generator
import FusedGemm.Random.NormalStrips
import FusedGemm.Tensor.Basic
import FusedGemm.Tensor.Bytes
import FusedGemm.Tensor.Fill
import FusedGemm.Tensor.Layout
import FusedGemm.Tensor.Text
import FusedGemm.Trial.Case
import FusedGemm.Trial.Dump
import FusedGemm.Trial.Failure
import FusedGemm.Trial.Lease
import FusedGemm.Trial.Operands
import FusedGemm.Trial.Plan
import FusedGemm.Trial.Round
import FusedGemm.Proofs.Check.Differences
import FusedGemm.Proofs.Check.Exactness
import FusedGemm.Proofs.Check.Locating
import FusedGemm.Proofs.Check.Norms
import FusedGemm.Proofs.Check.Ordering
import FusedGemm.Proofs.Check.Tolerance
import FusedGemm.Proofs.Config.Building
import FusedGemm.Proofs.Config.Classifying
import FusedGemm.Proofs.Config.RoundTrip
import FusedGemm.Proofs.Config.Validity
import FusedGemm.Proofs.Device.Accounting
import FusedGemm.Proofs.Device.Counting
import FusedGemm.Proofs.Device.Histories
import FusedGemm.Proofs.Device.Remembering
import FusedGemm.Proofs.Fusion.Broadcasting
import FusedGemm.Proofs.Gemm.Elementwise
import FusedGemm.Proofs.Gemm.FreshOutputs
import FusedGemm.Proofs.Gemm.KernelMemory
import FusedGemm.Proofs.Gemm.Ones
import FusedGemm.Proofs.Gemm.Reading
import FusedGemm.Proofs.Gemm.Reductions
import FusedGemm.Proofs.Gemm.Related
import FusedGemm.Proofs.Gemm.Repeating
import FusedGemm.Proofs.Json.Numerals
import FusedGemm.Proofs.Json.Records
import FusedGemm.Proofs.Json.Values
import FusedGemm.Proofs.Numeric.Arithmetic
import FusedGemm.Proofs.Numeric.Comparing
import FusedGemm.Proofs.Numeric.Estimating
import FusedGemm.Proofs.Numeric.ExactArithmetic
import FusedGemm.Proofs.Numeric.Float8
import FusedGemm.Proofs.Numeric.FromOne
import FusedGemm.Proofs.Numeric.Nearest
import FusedGemm.Proofs.Numeric.Overflow
import FusedGemm.Proofs.Numeric.Quantizing
import FusedGemm.Proofs.Numeric.Requantizing
import FusedGemm.Proofs.Numeric.RoundingOrder
import FusedGemm.Proofs.Numeric.SignedCodes
import FusedGemm.Proofs.Numeric.Signs
import FusedGemm.Proofs.Numeric.Squares
import FusedGemm.Proofs.Numeric.Unpacking
import FusedGemm.Proofs.Numeric.Widening
import FusedGemm.Proofs.Random.Streams
import FusedGemm.Proofs.Random.Turns
import FusedGemm.Proofs.Random.Uniform
import FusedGemm.Proofs.Tensor.Addressing
import FusedGemm.Proofs.Tensor.Bounds
import FusedGemm.Proofs.Tensor.Copying
import FusedGemm.Proofs.Tensor.Ones
import FusedGemm.Proofs.Tensor.Storing
import FusedGemm.Proofs.Trial.ActiveOutputs
import FusedGemm.Proofs.Trial.Admission
import FusedGemm.Proofs.Trial.Agreement
import FusedGemm.Proofs.Trial.Coverage
import FusedGemm.Proofs.Trial.DeviceView
import FusedGemm.Proofs.Trial.DumpFiles
import FusedGemm.Proofs.Trial.Dumping
import FusedGemm.Proofs.Trial.EmptyScalars
import FusedGemm.Proofs.Trial.Emulating
import FusedGemm.Proofs.Trial.EpilogueTypes
import FusedGemm.Proofs.Trial.Footprint
import FusedGemm.Proofs.Trial.GivingBack
import FusedGemm.Proofs.Trial.Isolation
import FusedGemm.Proofs.Trial.KernelFrame
import FusedGemm.Proofs.Trial.Materialization
import FusedGemm.Proofs.Trial.OnesPass
import FusedGemm.Proofs.Trial.OnesPlan
import FusedGemm.Proofs.Trial.OutputOnly
import FusedGemm.Proofs.Trial.Oversized
import FusedGemm.Proofs.Trial.Packing
import FusedGemm.Proofs.Trial.Perturbation
import FusedGemm.Proofs.Trial.Placement
import FusedGemm.Proofs.Trial.PlannedOperands
import FusedGemm.Proofs.Trial.Pulling
import FusedGemm.Proofs.Trial.Recomputing
import FusedGemm.Proofs.Trial.Reloading
import FusedGemm.Proofs.Trial.Requests
import FusedGemm.Proofs.Trial.SameHosts
import FusedGemm.Proofs.Trial.ScalarViews
import FusedGemm.Proofs.Trial.Slots
import FusedGemm.Proofs.Trial.StageOrder
import FusedGemm.Proofs.Trial.Stages
import FusedGemm.Proofs.Trial.StaleMaxima
import FusedGemm.Proofs.Trial.StartingContents
import FusedGemm.Proofs.Trial.Stopping
import FusedGemm.Proofs.Trial.Twins
import FusedGemm.Proofs.Trial.Verdict
