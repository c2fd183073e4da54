import WorkflowOperator.Desired.Objects
import WorkflowOperator.Desired.Owner

/-!
# What a pass wants

The objects of a workflow in the order in which they are created, grouped into steps so that what an
object depends on comes before it.
-/

namespace WorkflowOperator

/-- A step of convergence. -/
inductive Step
  | network
  | accessControl
  | registry
  | manager
deriving DecidableEq, Repr

def Step.name : Step → String
  | .network => "network"
  | .accessControl => "access-control"
  | .registry => "registry"
  | .manager => "manager"

/-- An object that is wanted: its key, and the object, which may turn out not to be makeable. -/
structure Wanted where
  key : ObjectKey
  object : Outcome Resource
  key_eq : ∀ r, object = .ok r → r.key = key

def Wanted.of (r : Resource) : Wanted where
  key := r.key
  object := .ok r
  key_eq := by rintro _ ⟨⟩; rfl

namespace Workflow

def wantedManagerFiles (c : Config) (w : Workflow) : Wanted where
  key := w.keyOf .configMap w.managerName
  object := (w.managerConfigMap c).mapError Template.Fault.toError
  key_eq := by
    intro r h
    unfold managerConfigMap at h
    cases hf : w.managerFiles c with
    | error e =>
      rw [hf] at h
      cases h
    | ok files =>
      rw [hf] at h
      cases h
      rfl

/-- The objects of a workflow, step by step.  An external registry needs no object. -/
def plan (c : Config) (w : Workflow) : List (Step × List Wanted) :=
  [(.network, [.of w.headlessService]),
    (.accessControl, w.accessControl.map .of)] ++
  (if w.hasInClusterRegistry then [(.registry, [.of w.registrySet])] else []) ++
  [(.manager, [w.wantedManagerFiles c, .of (w.managerDeployment c)])]

/-- The keys of all objects of a workflow, in the order of their creation. -/
def wantedKeys (c : Config) (w : Workflow) : List ObjectKey :=
  (w.plan c).flatMap fun s => s.2.map Wanted.key

/-- The workflow that a pass works on, and the owner of all that it creates. -/
def prepare (c : Config) (desired : Workflow) : Outcome (Workflow × OwnerReference) := do
  let w ← desired.validate c
  let owner ← w.owner
  return (w, owner)

end Workflow

end WorkflowOperator
