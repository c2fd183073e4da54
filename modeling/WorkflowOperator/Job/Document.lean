import WorkflowOperator.Job.Script
import WorkflowOperator.Json.Printer
import WorkflowOperator.Yaml.Value

/-!
# Job documents

The document in which the manager finds a stage.  Values on one line are quoted as in JSON, which
YAML reads as flow scalars.  Texts of several lines are literal blocks with an explicit indentation
and with the chomping that gives back their line breaks; they are never searched for placeholders.
-/

namespace WorkflowOperator

open Template Text

/-- The line of a key with the placeholder for its value, at a depth of indentation. -/
def entryLine (depth : Nat) (key slotName : String) : String :=
  String.ofList (List.replicate (2 * depth) ' ') ++ key ++ ": " ++ slot slotName ++ "\n"

def flagText (b : Bool) : String := if b then "true" else "false"

def countText (n : UInt32) : String := toString n.toNat

def blockIndent : String := "  "

/-- A literal block under a key.  Keeping all line breaks at the end is right for a text that ends in
one; for another the one that ends the block is stripped. -/
def literalBlock (key body : String) : String :=
  let indented := reindent blockIndent body
  if endsLine indented then key ++ ": |2+\n" ++ indented
  else key ++ ": |2-\n" ++ indented ++ "\n"

namespace ResolvedJob

/-- The lines of a document's template before its blocks, in order. Optional values have a line if they
are set, and the tags of artifacts if they are not empty. -/
def templateLines (j : ResolvedJob) : List String :=
  let s := j.step
  [entryLine 0 "name" "yaml_name",
    entryLine 0 "image" "yaml_image",
    entryLine 0 "workdir" "yaml_workdir",
    entryLine 0 "interactive" "yaml_interactive",
    "config:\n",
    entryLine 1 "nnodes" "yaml_nodes",
    entryLine 1 "cores_per_task" "yaml_cores_per_task"] ++
  Fragment.when s.config.tasks.isSome [entryLine 1 "tasks" "yaml_tasks"] ++
  [entryLine 1 "ngpus" "yaml_gpus",
    entryLine 1 "gpulabel" "yaml_gpu_label",
    entryLine 1 "pull_policy" "yaml_pull_policy",
    entryLine 1 "retry_failure" "yaml_retry_failure"] ++
  Fragment.when s.config.walltime.isSome [entryLine 1 "walltime" "yaml_walltime"] ++
  Fragment.when s.config.command.isSome [entryLine 1 "command" "yaml_command"] ++
  ["registry:\n",
    entryLine 1 "host" "yaml_registry_host",
    entryLine 1 "plain_http" "yaml_plain_http"] ++
  Fragment.when (!j.registry.push.isEmpty) [entryLine 1 "push" "yaml_push"] ++
  Fragment.when (!j.registry.pull.isEmpty) [entryLine 1 "pull" "yaml_pull"] ++
  [entryLine 0 "properties" "yaml_properties"]

/-- The blocks of a stage's document: its own configuration and the given script, unless they are
empty. -/
def documentBlocks (j : ResolvedJob) (script : String) : List (String × String) :=
  [("app-config", j.step.appConfig), ("script", script)].filter fun b => !b.2.isEmpty

def documentTemplate (j : ResolvedJob) (script : String) : Template :=
  ⟨.text (String.join j.templateLines) ::
    (j.documentBlocks script).map fun b => .literal (literalBlock b.1 b.2)⟩

def documentBindings (j : ResolvedJob) : Except Fault Bindings := do
  let s := j.step
  let b := Bindings.empty
  let b ← b.insert "yaml_name" (Json.quote s.name)
  let b ← b.insert "yaml_image" (Json.quote s.image)
  let b ← b.insert "yaml_workdir" (Json.quote s.workdir)
  let b ← b.insert "yaml_interactive" (flagText s.interactive)
  let b ← b.insert "yaml_nodes" (countText s.config.nodes)
  let b ← b.insert "yaml_cores_per_task" (countText s.config.coresPerTask)
  let b ← b.insertSome "yaml_tasks" (s.config.tasks.map countText)
  let b ← b.insert "yaml_gpus" (countText s.config.gpus)
  let b ← b.insert "yaml_gpu_label" (Json.quote s.config.gpuLabel)
  let b ← b.insert "yaml_pull_policy" (Json.quote s.config.pullPolicy)
  let b ← b.insert "yaml_retry_failure" (flagText s.config.retryFailure)
  let b ← b.insertSome "yaml_walltime" (s.config.walltime.map Json.quote)
  let b ← b.insertSome "yaml_command" (s.config.command.map Json.quote)
  let b ← b.insert "yaml_registry_host" (Json.quote j.registry.host)
  let b ← b.insert "yaml_plain_http" (flagText j.registry.plainHttp)
  let b ← b.insertWhen (!j.registry.push.isEmpty) "yaml_push" (Json.quote j.registry.push)
  let b ← b.insertWhen (!j.registry.pull.isEmpty) "yaml_pull" (Json.quote j.registry.pull)
  b.insert "yaml_properties" (Json.ofTextMap s.properties).compact

def documentText (j : ResolvedJob) (script : String) : Except Fault String := do
  let b ← j.documentBindings
  (j.documentTemplate script).render b

/-- The document of a stage with a given script.  One that is no YAML is not handed over. -/
def document (j : ResolvedJob) (script : String) : Except Fault String := do
  let text ← j.documentText script
  match Yaml.Value.ofText text with
  | .ok _ => return text
  | .error fault => throw (.unreadableDocument j.step.name fault.message)

end ResolvedJob

/-- A stage as the manager gets it. -/
structure AssembledJob where
  name : String
  script : String
  document : String
deriving DecidableEq, Repr

/-- The script and the document of a stage of a workflow. -/
def Workflow.assemble (c : Config) (w : Workflow) (j : JobStep) : Except Fault AssembledJob := do
  let resolved := w.resolve c j
  let script ← resolved.script c.tools
  let document ← resolved.document script
  return ⟨resolved.step.name, script, document⟩

end WorkflowOperator
