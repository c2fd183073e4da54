import WorkflowOperator.Job.Fragment
import WorkflowOperator.Job.Resolved

/-!
# Stage scripts

The script of a stage is composed of its fragments and then filled in with the values of the resolved
stage.
-/

namespace WorkflowOperator

open Template

/-- The environment variable in which the runtime gives the identifier of a job. -/
def jobidVariable : String := "JOBID"

/-- The option of the registry client for a registry without encryption, or nothing. -/
def plainHttpFlag (b : Bool) : String := if b then "--plain-http" else ""

namespace ResolvedJob

/-- The fragments of a stage's script, in order; a stage without commands has none. -/
def fragments (j : ResolvedJob) : List Fragment :=
  if j.step.script.isEmpty then []
  else
    [.preamble ⟨true, true, j.step.config.tasks.isSome⟩, .installTool] ++
    Fragment.when (!j.registry.pull.isEmpty) [.pullArtifact] ++
    [.payload j.step.script] ++
    Fragment.when (!j.registry.push.isEmpty) [.pushArtifact]

def scriptBindings (tools : ToolSource) (j : ResolvedJob) : Except Fault Bindings := do
  let b := Bindings.empty
  let b ← b.insertVariable "jobid" jobidVariable j.jobid
  let b ← b.insertShell "outpath" j.step.workdir
  let b ← b.insertShell "registry" j.registry.host
  let b ← b.insert "cores_per_task" (toString j.step.config.coresPerTask.toNat)
  let b ← b.insert "nodes" (toString j.step.config.nodes.toNat)
  let b ← match j.step.config.tasks with
    | some tasks => b.insert "tasks" (toString tasks.toNat)
    | none => pure b
  let b ← b.insertShell "arch" j.step.arch
  let b ← b.insertShell "tool_version" tools.version
  let b ← b.insertShell "tool_base_url" tools.baseUrl
  let b ← b.insert "plain_http_flag" (plainHttpFlag j.registry.plainHttp)
  let b ← if j.registry.pull.isEmpty then pure b else b.insertShell "pull_tag" j.registry.pull
  if j.registry.push.isEmpty then pure b else b.insertShell "push_tag" j.registry.push

/-- The script of a stage; empty if the stage has no commands. -/
def script (tools : ToolSource) (j : ResolvedJob) : Except Fault String :=
  match j.fragments with
  | [] => .ok ""
  | fragments => do
    let b ← j.scriptBindings tools
    (Template.ofText (Fragment.compose fragments)).render b

end ResolvedJob

end WorkflowOperator
