import LlgoExamples.Library.Blocks
import LlgoExamples.Library.Ledger
import LlgoExamples.Library.Machine
import LlgoExamples.Library.PrefixCode
import LlgoExamples.Library.Registers
import LlgoExamples.Library.Relay
import LlgoExamples.Library.Supply
import LlgoExamples.Model.Csv.Debug
import LlgoExamples.Model.Csv.Reader
import LlgoExamples.Model.Csv.Wrapper
import LlgoExamples.Model.Hyper.Body
import LlgoExamples.Model.Hyper.CProgram
import LlgoExamples.Model.Hyper.Client
import LlgoExamples.Model.Hyper.Connect
import LlgoExamples.Model.Hyper.Connection
import LlgoExamples.Model.Hyper.Get
import LlgoExamples.Model.Hyper.Request
import LlgoExamples.Model.Hyper.Runtime
import LlgoExamples.Model.Hyper.Upload
import LlgoExamples.Model.Opendal.Calls
import LlgoExamples.Model.Opendal.Core
import LlgoExamples.Model.Opendal.Demos
import LlgoExamples.Model.Opendal.Handles
import LlgoExamples.Model.Opendal.Memory
import LlgoExamples.Model.Opendal.Operator
import LlgoExamples.Model.Sled.CApi
import LlgoExamples.Model.Sled.Config
import LlgoExamples.Model.Sled.Demo
import LlgoExamples.Model.Sled.Wrapper
import LlgoExamples.Verification.Csv.Draining
import LlgoExamples.Verification.Csv.Programs
import LlgoExamples.Verification.Csv.Rendering
import LlgoExamples.Verification.Csv.Wrapper
import LlgoExamples.Verification.Hyper.AddressLoop
import LlgoExamples.Verification.Hyper.BodyBuffer
import LlgoExamples.Verification.Hyper.BodyPrinting
import LlgoExamples.Verification.Hyper.CProgram
import LlgoExamples.Verification.Hyper.Client
import LlgoExamples.Verification.Hyper.Descriptors
import LlgoExamples.Verification.Hyper.Handles
import LlgoExamples.Verification.Hyper.Phases
import LlgoExamples.Verification.Hyper.Polling
import LlgoExamples.Verification.Hyper.Port
import LlgoExamples.Verification.Hyper.Printout
import LlgoExamples.Verification.Hyper.RequestBody
import LlgoExamples.Verification.Hyper.RequestStrings
import LlgoExamples.Verification.Hyper.Rounds
import LlgoExamples.Verification.Hyper.Sessions
import LlgoExamples.Verification.Hyper.TypeSafety
import LlgoExamples.Verification.Hyper.Upload
import LlgoExamples.Verification.Hyper.Wakers
import LlgoExamples.Verification.Opendal.Demos
import LlgoExamples.Verification.Opendal.Outcomes
import LlgoExamples.Verification.Opendal.Refinement
import LlgoExamples.Verification.Opendal.Runs
import LlgoExamples.Verification.Opendal.Session
import LlgoExamples.Verification.Sled.Buffers
import LlgoExamples.Verification.Sled.Clients
import LlgoExamples.Verification.Sled.Demo
import LlgoExamples.Verification.Sled.Equations
import LlgoExamples.Verification.Sled.Observation
import LlgoExamples.Verification.Sled.Ownership
import LlgoExamples.Verification.Sled.ReadThenSwap
import LlgoExamples.Verification.Sled.Releases
import LlgoExamples.Verification.Sled.Settings
