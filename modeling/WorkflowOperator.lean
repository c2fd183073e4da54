import WorkflowOperator.Command.Folder
import WorkflowOperator.Log
import WorkflowOperator.Main
import WorkflowOperator.Resource.Reading
import WorkflowOperator.Store.Collection
import WorkflowOperator.Proofs.SortedMap
import WorkflowOperator.Proofs.Store.Growth
import WorkflowOperator.Proofs.Store.Answers
import WorkflowOperator.Proofs.Converge.Desired
import WorkflowOperator.Proofs.Converge.Effect
import WorkflowOperator.Proofs.Converge.Race
import WorkflowOperator.Proofs.Converge.RacingPasses
import WorkflowOperator.Proofs.Store.Collection
import WorkflowOperator.Proofs.Converge.Isolation
import WorkflowOperator.Proofs.Yaml.Position
import WorkflowOperator.Proofs.Yaml.Quoting
import WorkflowOperator.Proofs.Yaml.Literal
import WorkflowOperator.Proofs.Job.Written
import WorkflowOperator.Proofs.Yaml.Scanning
import WorkflowOperator.Proofs.Yaml.Settled
import WorkflowOperator.Proofs.Yaml.FlowScanning
import WorkflowOperator.Proofs.Yaml.Reading
import WorkflowOperator.Proofs.Yaml.Core
import WorkflowOperator.Proofs.Yaml.Valuing
import WorkflowOperator.Proofs.Job.Content
import WorkflowOperator.Proofs.Job.Scanning
import WorkflowOperator.Proofs.Job.Decoding
import WorkflowOperator.Proofs.Store.Ownership
import WorkflowOperator.Proofs.Converge.Calls
import WorkflowOperator.Proofs.Converge.Failing
import WorkflowOperator.Proofs.Converge.Resuming
import WorkflowOperator.Proofs.Converge.Deletion
import WorkflowOperator.Proofs.Template.Occurrence
import WorkflowOperator.Proofs.Template.Substitution
import WorkflowOperator.Proofs.Template.Joining
import WorkflowOperator.Proofs.Template.Lines
import WorkflowOperator.Proofs.Job.ScriptValues
import WorkflowOperator.Proofs.Job.Composition
import WorkflowOperator.Proofs.Job.ScriptOutcome
import WorkflowOperator.Proofs.Manager.Files
import WorkflowOperator.Proofs.Store.History
import WorkflowOperator.Proofs.Job.FilledFragments
import WorkflowOperator.Proofs.Manager.Entrypoint
import WorkflowOperator.Proofs.Desired.References
import WorkflowOperator.Proofs.Decimal.Sign
import WorkflowOperator.Proofs.Text.Form
import WorkflowOperator.Proofs.Workflow.Acceptance
import WorkflowOperator.Proofs.Job.Agreement
import WorkflowOperator.Proofs.Job.SharedArtifact
import WorkflowOperator.Proofs.Yaml.LiteralRule
import WorkflowOperator.Proofs.Workflow.Unset
import WorkflowOperator.Proofs.Workflow.Addresses
import WorkflowOperator.Proofs.Json.Members
import WorkflowOperator.Proofs.Resource.ReadingBack
import WorkflowOperator.Proofs.Config.Layers
import WorkflowOperator.Proofs.Converge.Observation
import WorkflowOperator.Proofs.Text.Count
import WorkflowOperator.Proofs.Yaml.ReadingBack
import WorkflowOperator.Proofs.Manager.HandOver
import WorkflowOperator.Proofs.Yaml.Lacking
import WorkflowOperator.Proofs.Workflow.Required
import WorkflowOperator.Proofs.Workflow.Refusal
import WorkflowOperator.Proofs.Template.BindingHistory
import WorkflowOperator.Proofs.Resource.Owners
