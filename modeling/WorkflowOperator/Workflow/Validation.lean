import WorkflowOperator.Config.Basic
import WorkflowOperator.Decimal.Notation
import WorkflowOperator.Error
import WorkflowOperator.Text.Comparison
import WorkflowOperator.Text.Label
import WorkflowOperator.Workflow.Naming

/-!
# Validation

Unset fields are filled in from the configuration, and the result is held against a list of rules.
The first rule that is broken is the one that is reported.
-/

namespace WorkflowOperator

open Text

def eventActions : List String := ["grow", "shrink", "finish-workflow"]

/-- The architectures that the registry client is published for. -/
def supportedArches : List String := ["amd64", "arm64"]

/-- A way in which a workflow is not as it must be. -/
inductive Violation
  | noWorkflowName
  | workflowName (name : String)
  | namespaceName (name : String)
  | registryHost (host : String)
  | registryName (name : String)
  | jobNamePrefix (text : String)
  | noMaxSize
  | noThreshold
  | noJobName (index : Nat)
  | jobName (name : String)
  | duplicateJob (name : String)
  | noImage (job : String)
  | arch (job arch : String)
  | workdir (job workdir : String)
  | jobRegistryHost (job host : String)
  | pushTag (job tag : String)
  | pullTag (job tag : String)
  | noMetric
  | action (metric action : String)
  | negative (metric : String) (x : Binary64)
  | expression (metric text : String)
  | noUid (workflow : String)
deriving DecidableEq, Repr

namespace Violation

def notLabel (what name : String) : String :=
  what ++ " '" ++ name ++ "' must be lowercase alphanumeric characters or '-'"

def notShellSafe (what text : String) : String :=
  what ++ " '" ++ text ++ "' contains shell-unsafe characters"

def notTag (job field tag : String) : String :=
  "Job '" ++ job ++ "' has invalid registry." ++ field ++ " tag '" ++ tag ++ "'"

def message : Violation → String
  | .noWorkflowName => "Workflow name is required"
  | .workflowName name => notLabel "Workflow name" name
  | .namespaceName name => notLabel "Namespace" name
  | .registryHost host => notShellSafe "Registry host" host
  | .registryName name => notLabel "Registry name" name
  | .jobNamePrefix text => notShellSafe "Job name prefix" text
  | .noMaxSize => "cluster.maxSize must be >= 1"
  | .noThreshold => "workflow.completed must be >= 1"
  | .noJobName index => "Job " ++ toString index ++ " has no name"
  | .jobName name =>
    "Job name '" ++ name ++ "' must be lowercase alphanumeric characters, '-' or '_'"
  | .duplicateJob name => "Duplicate job name: " ++ name
  | .noImage job => "Job '" ++ job ++ "' requires an image"
  | .arch job found =>
    "Job '" ++ job ++ "' has unsupported arch '" ++ found ++ "' (expected one of " ++
      ", ".intercalate supportedArches ++ ")"
  | .workdir job path => notShellSafe ("Job '" ++ job ++ "' workdir") path
  | .jobRegistryHost job host => notShellSafe ("Job '" ++ job ++ "' registry host") host
  | .pushTag job tag => notTag job "push" tag
  | .pullTag job tag => notTag job "pull" tag
  | .noMetric => "Event is missing a metric"
  | .action metric found => "Event for '" ++ metric ++ "' has invalid action '" ++ found ++ "'"
  | .negative metric x =>
    "Event for '" ++ metric ++ "' has negative when value " ++ x.inMessage
  | .expression metric text => "Event for '" ++ metric ++ "' has invalid when '" ++ text ++ "'"
  | .noUid workflow =>
    "Workflow '" ++ workflow ++ "' has no uid; owned objects cannot reference it"

def toError (v : Violation) : Error := .validation v.message

end Violation

/-- Something that must hold, and what is violated if it does not. -/
structure Rule where
  holds : Bool
  violation : Violation

def Condition.rule (metric : String) : Condition → Rule
  | .equals x => ⟨x.isNonnegative, .negative metric x⟩
  | .expression s => ⟨isComparison s, .expression metric s⟩

def WorkflowEvent.rules (e : WorkflowEvent) : List Rule :=
  [⟨!e.metric.isEmpty, .noMetric⟩,
    ⟨eventActions.contains e.action, .action e.metric e.action⟩] ++
  (e.condition.map (Condition.rule e.metric)).toList

/-- The rules for a stage at a place among the stages, after stages of the given names. -/
def JobStep.rules (earlier : List String) (index : Nat) (j : JobStep) : List Rule :=
  [⟨!j.name.isEmpty, .noJobName index⟩,
    ⟨isJobName j.name, .jobName j.name⟩,
    ⟨!earlier.contains j.name, .duplicateJob j.name⟩,
    ⟨!j.image.isEmpty, .noImage j.name⟩,
    ⟨j.arch.isEmpty || supportedArches.contains j.arch, .arch j.name j.arch⟩,
    ⟨isShellWord j.workdir, .workdir j.name j.workdir⟩,
    ⟨isShellWord j.registry.host, .jobRegistryHost j.name j.registry.host⟩,
    ⟨j.registry.push.isEmpty || isTag j.registry.push, .pushTag j.name j.registry.push⟩,
    ⟨j.registry.pull.isEmpty || isTag j.registry.pull, .pullTag j.name j.registry.pull⟩]

/-- The rules for the stages from a place on, after stages of the given names. -/
def jobRules (earlier : List String) (index : Nat) : List JobStep → List Rule
  | [] => []
  | j :: rest => j.rules earlier index ++ jobRules (j.name :: earlier) (index + 1) rest

namespace Workflow

/-- The rules for a workflow, in the order in which they are reported. -/
def rules (w : Workflow) : List Rule :=
  [⟨!w.name.isEmpty, .noWorkflowName⟩,
    ⟨isLabel w.name, .workflowName w.name⟩,
    ⟨w.inNamespace.isEmpty || isLabel w.inNamespace, .namespaceName w.inNamespace⟩,
    ⟨isShellWord w.spec.registry.host, .registryHost w.spec.registry.host⟩,
    ⟨!w.hasInClusterRegistry || isLabel w.spec.registry.name,
      .registryName w.spec.registry.name⟩,
    ⟨isShellWord w.spec.completion.jobNamePrefix,
      .jobNamePrefix w.spec.completion.jobNamePrefix⟩,
    ⟨1 ≤ w.spec.cluster.maxSize, .noMaxSize⟩,
    ⟨1 ≤ w.spec.completion.threshold, .noThreshold⟩] ++
  jobRules [] 0 w.spec.jobs ++
  w.spec.completion.events.flatMap WorkflowEvent.rules

/-- The first rule that a workflow breaks. -/
def violation? (w : Workflow) : Option Violation :=
  (w.rules.find? fun r => !r.holds).map Rule.violation

end Workflow

def textOr (s fallback : String) : String := if s.isEmpty then fallback else s

def countOr (n fallback : UInt32) : UInt32 := if n = 0 then fallback else n

def ManagerPolicy.withDefaults (c : Config) (p : ManagerPolicy) : ManagerPolicy :=
  { p with
    image := textOr p.image c.images.manager
    subdomain := textOr p.subdomain "r"
    replicas := countOr p.replicas 1
    coresPerNode := countOr p.coresPerNode 4
    pullPolicy := textOr p.pullPolicy standardPullPolicy }

/-- A registry policy with unset fields filled in; the address of a registry outside the cluster
stays as it is. -/
def RegistryPolicy.withDefaults (c : Config) (p : RegistryPolicy) : RegistryPolicy :=
  let p := { p with
    image := textOr p.image c.images.registry
    pullPolicy := textOr p.pullPolicy standardPullPolicy }
  if p.isInCluster then
    { p with
      port := p.effectivePort
      name := p.effectiveName
      replicas := countOr p.replicas 1 }
  else p

namespace Workflow

def withDefaults (c : Config) (w : Workflow) : Workflow :=
  { w with spec := { w.spec with
    manager := w.spec.manager.withDefaults c
    registry := w.spec.registry.withDefaults c } }

/-- The workflow with unset fields filled in, if it keeps all rules then. -/
def validate (c : Config) (w : Workflow) : Outcome Workflow :=
  match (w.withDefaults c).violation? with
  | some v => .error v.toError
  | none => .ok (w.withDefaults c)

end Workflow

end WorkflowOperator
