import WorkflowOperator.Config.Basic
import WorkflowOperator.Workflow.Validation

/-!
# Resolved jobs

A stage with every unset field filled in and with the registry that it uses.
-/

namespace WorkflowOperator

/-- The registry that a stage uses.  An empty tag is not pulled or pushed. -/
structure ResolvedRegistry where
  host : String
  plainHttp : Bool
  pull : String
  push : String
deriving DecidableEq, Repr

/-- A stage that lacks nothing. -/
structure ResolvedJob where
  step : JobStep
  registry : ResolvedRegistry
  /-- The identifier of the job where the runtime gives none.  All stages of a workflow share it and
  differ in their tags. -/
  jobid : String
deriving DecidableEq

/-- A stage with its unset fields filled in. -/
def JobStep.withDefaults (d : JobDefaults) (j : JobStep) : JobStep :=
  { j with
    arch := textOr j.arch d.arch
    workdir := textOr j.workdir d.workdir
    config := { j.config with
      nodes := countOr j.config.nodes d.nodes
      coresPerTask := countOr j.config.coresPerTask d.coresPerTask
      gpuLabel := textOr j.config.gpuLabel d.gpuLabel
      pullPolicy := textOr j.config.pullPolicy d.pullPolicy } }

namespace Workflow

/-- The registry that a stage uses: its own settings if it has any, with the workflow's registry as
the host that they leave open, and the workflow's registry otherwise. -/
def resolveRegistry (w : Workflow) (j : JobStep) : ResolvedRegistry :=
  if j.hasRegistry then
    ⟨textOr j.registry.host w.registryAddress, j.registry.usesPlainHttp, j.registry.pull,
      j.registry.push⟩
  else ⟨w.registryAddress, w.spec.registry.usesPlainHttp, "", ""⟩

/-- The identifier that the stages share. -/
def jobid (w : Workflow) : String := w.spec.completion.jobNamePrefix ++ w.name

def resolve (c : Config) (w : Workflow) (j : JobStep) : ResolvedJob :=
  ⟨j.withDefaults c.jobs, w.resolveRegistry j, w.jobid⟩

end Workflow

end WorkflowOperator
