import WorkflowOperator.Resource.Basic
import WorkflowOperator.Workflow.Validation

/-!
# Workflows as owners

The reference by which the objects of a workflow name it as their owner.
-/

namespace WorkflowOperator

/-- The reference to a workflow, which must have an identifier. -/
def Workflow.owner (w : Workflow) : Outcome OwnerReference :=
  match w.identity.uid with
  | some uid => .ok ⟨w.apiVersion, w.kind, w.name, uid, true, true⟩
  | none => .error (Violation.noUid w.name).toError

end WorkflowOperator
