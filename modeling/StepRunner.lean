import StepRunner.Main
import StepRunner.Proofs.Message.RoundTrip
import StepRunner.Proofs.Session.Correlation
import StepRunner.Proofs.Session.Refusal
import StepRunner.Proofs.Connection.Writing
import StepRunner.Proofs.Session.Sending
import StepRunner.Proofs.Session.Panic
import StepRunner.Proofs.Session.Agreement
import StepRunner.Proofs.Session.Assembly
import StepRunner.Proofs.Store.History
import StepRunner.Proofs.Session.Calls
import StepRunner.Proofs.Session.Stores
import StepRunner.Proofs.Connection.Sequence
import StepRunner.Proofs.Session.Steps
import StepRunner.Proofs.Message.Rearranging
import StepRunner.Proofs.Message.Text
import StepRunner.Proofs.Wire.Size
import StepRunner.Proofs.Message.Stability
import StepRunner.Proofs.Connection.Reading
import StepRunner.Proofs.Message.Validity
import StepRunner.Proofs.Session.Batch
import StepRunner.Proofs.Step.Text
import StepRunner.Proofs.Hook.Registry
import StepRunner.Proofs.Session.Validation
import StepRunner.Proofs.Session.Reporting
import StepRunner.Proofs.Bytes.Spelling
import StepRunner.Proofs.Message.Screenshot
import StepRunner.Proofs.Step.NormalForm
import StepRunner.Proofs.Project.FileTree
import StepRunner.Proofs.Session.Escape
import StepRunner.Proofs.Project.Scaffold
