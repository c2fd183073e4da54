import WorkflowOperator.Workflow.Naming
import WorkflowOperator.Yaml.Printer

/-!
# The manager's workflow file

The document that tells the manager when the workflow is complete, what events do, how large the
cluster may become, and in which files it finds the stages.
-/

namespace WorkflowOperator

open Yaml (Value)

def workflowFileName : String := "workflow.yaml"

/-- The name of the file of a stage, by its place among the stages. -/
def jobFileName (index : Nat) : String := "job_" ++ toString index ++ ".yaml"

def countValue (n : UInt32) : Value := .int n.toNat

def valueOfEntries (l : List (String × Value)) : Value :=
  .mapping (l.map fun e => (.string e.1, e.2))

/-- An entry that is left out when there is no value for it. -/
def optionalEntry {α : Type} (name : String) (write : α → Value) (v : Option α) :
    List (String × Value) := (v.map fun a => (name, write a)).toList

def Condition.toValue : Condition → Value
  | .equals x => .float x
  | .expression s => .string s

def WorkflowEvent.toValue (e : WorkflowEvent) : Value :=
  valueOfEntries <|
    [("metric", .string e.metric)] ++
    optionalEntry "when" Condition.toValue e.condition ++
    [("action", .string e.action)] ++
    optionalEntry "backoff" (fun n : Int32 => .int n.toInt) e.backoff ++
    optionalEntry "repetitions" countValue e.repetitions ++
    optionalEntry "minCompletions" countValue e.minCompletions ++
    optionalEntry "minSize" countValue e.minSize ++
    optionalEntry "maxSize" countValue e.maxSize

def CompletionPolicy.toValue (p : CompletionPolicy) : Value :=
  valueOfEntries <|
    [("completed", countValue p.threshold)] ++
    (if p.jobNamePrefix.isEmpty then [] else [("prefix", .string p.jobNamePrefix)]) ++
    (if p.events.isEmpty then [] else [("events", .sequence (p.events.map WorkflowEvent.toValue))])

namespace Workflow

def jobFileNames (w : Workflow) : List String :=
  (List.range w.spec.jobs.length).map jobFileName

def fileValue (w : Workflow) : Value :=
  valueOfEntries [
    ("name", .string w.name),
    ("namespace", .string w.inNamespace),
    ("workflow", w.spec.completion.toValue),
    ("cluster", valueOfEntries [
      ("max_size", countValue w.spec.cluster.maxSize),
      ("max_nodes", countValue w.spec.manager.maxNodes),
      ("cores_per_node", countValue w.spec.manager.coresPerNode)]),
    ("jobs", .sequence (w.jobFileNames.map .string))]

def file (w : Workflow) : String := w.fileValue.print

end Workflow

end WorkflowOperator
