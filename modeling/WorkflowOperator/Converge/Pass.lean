import WorkflowOperator.Converge.Plan

/-!
# A pass of convergence

A pass asks a store for each wanted object and creates it if it is missing.  What is there is left as
it is.  A pass is data: which question it asks next follows from the answers so far, whatever store
gives them and whatever happens to the store between two questions.
-/

namespace WorkflowOperator

/-- What a pass did, in the order of its visits. -/
structure Report where
  workflow : String
  inNamespace : String
  created : List ObjectKey
  present : List ObjectKey
deriving DecidableEq, Repr

def Report.isUnchanged (r : Report) : Bool := r.created.isEmpty

/-- Something that an observer of a pass is told, of a workflow by its name. -/
inductive Event
  | started (workflow : String) (step : Step)
  | created (workflow : String) (step : Step) (key : ObjectKey)
  /-- An object is there; raced if someone created it between the question and the creation. -/
  | present (workflow : String) (step : Step) (key : ObjectKey) (raced : Bool)
  | converged (report : Report)
  /-- Without a step, the workflow was refused before the store was asked anything. -/
  | failed (workflow : String) (step : Option Step) (error : Error)
deriving DecidableEq, Repr

/-- A course of questions to a store and of messages to an observer, up to a result. -/
inductive Pass (α : Type)
  | done (a : α)
  | lookup (key : ObjectKey) (next : Outcome Resource → Pass α)
  | create (r : Resource) (next : Outcome Resource → Pass α)
  | tell (e : Event) (next : Pass α)

/-- A pass that goes on after a result. -/
def Pass.bind {α β : Type} : Pass α → (α → Pass β) → Pass β
  | .done a, f => f a
  | .lookup key next, f => .lookup key fun reply => (next reply).bind f
  | .create r next, f => .create r fun reply => (next reply).bind f
  | .tell e next, f => .tell e (next.bind f)

/-- How a wanted object came to be there. -/
inductive Settled
  | created
  | present (raced : Bool)
deriving DecidableEq, Repr

def Settled.event (workflow : String) (step : Step) (key : ObjectKey) : Settled → Event
  | .created => .created workflow step key
  | .present raced => .present workflow step key raced

def Report.add (report : Report) (key : ObjectKey) : Settled → Report
  | .created => { report with created := report.created ++ [key] }
  | .present _ => { report with present := report.present ++ [key] }

/-- Sees to it that a wanted object is there.  It is made only if it is missing. -/
def Wanted.ensure (owner : OwnerReference) (w : Wanted) : Pass (Outcome Settled) :=
  .lookup w.key fun
    | .ok _ => .done (.ok (.present false))
    | .error e =>
      if !e.isNotFound then .done (.error e)
      else
        match w.object with
        | .error e => .done (.error e)
        | .ok r => .create (r.withOwner owner) fun
          | .ok _ => .done (.ok .created)
          | .error e =>
            if e.isAlreadyExists then .done (.ok (.present true)) else .done (.error e)

/-- Sees to it that the objects of a step are there, up to the first failure. -/
def ensureAll (owner : OwnerReference) (step : Step) :
    List Wanted → Report → Pass (Outcome Report)
  | [], report => .done (.ok report)
  | w :: rest, report => (w.ensure owner).bind fun
    | .error e => .done (.error e)
    | .ok settled =>
      .tell (settled.event report.workflow step w.key)
        (ensureAll owner step rest (report.add w.key settled))

/-- Takes the steps toward the workflow of a name, up to the first failure. -/
def takeSteps (workflow : String) (owner : OwnerReference) :
    List (Step × List Wanted) → Report → Pass (Outcome Report)
  | [], report => .tell (.converged report) (.done (.ok report))
  | (step, wanted) :: rest, report =>
    .tell (.started workflow step) <| (ensureAll owner step wanted report).bind fun
      | .error e => .tell (.failed workflow (some step) e) (.done (.error e))
      | .ok report => takeSteps workflow owner rest report

/-- One pass of convergence toward a desired workflow. -/
def Workflow.converge (c : Config) (desired : Workflow) : Pass (Outcome Report) :=
  match desired.prepare c with
  | .error e => .tell (.failed desired.name none e) (.done (.error e))
  | .ok (w, owner) => takeSteps desired.name owner (w.plan c) ⟨w.name, w.inNamespace, [], []⟩

end WorkflowOperator
