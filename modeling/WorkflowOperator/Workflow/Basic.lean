import WorkflowOperator.Decimal.Binary64
import WorkflowOperator.SortedMap

/-!
# Workflows

The desired state of a workflow: who it is, the registry through which its stages pass results on,
the manager that runs them, when it is complete, and its stages in order.
-/

namespace WorkflowOperator

/-- Where the artifact registry is, or how one is set up.  Without a host it is set up inside the
cluster. -/
structure RegistryPolicy where
  host : String
  name : String
  port : UInt16
  plainHttp : Option Bool
  tlsVerify : Bool
  replicas : UInt32
  image : String
  pullPolicy : String
  nodeSelector : String
deriving DecidableEq, Repr

/-- How the manager of the workflow is deployed. -/
structure ManagerPolicy where
  replicas : UInt32
  subdomain : String
  maxNodes : UInt32
  coresPerNode : UInt32
  /-- Whether the container stays after the manager has ended. -/
  interactive : Bool
  image : String
  pullPolicy : String
  nodeSelector : String
deriving DecidableEq, Repr

/-- The bounds of the cluster that jobs are submitted to. -/
structure ClusterPolicy where
  maxSize : UInt32
  autoscale : Bool
deriving DecidableEq, Repr

/-- The condition of an event: equality to a number, or a comparison in words. -/
inductive Condition
  | equals (x : Binary64)
  | expression (s : String)
deriving DecidableEq, Repr

/-- An action that a metric triggers. -/
structure WorkflowEvent where
  metric : String
  /-- Without a condition the event is triggered by any value but zero and nothing. -/
  condition : Option Condition
  action : String
  backoff : Option Int32
  repetitions : Option UInt32
  minCompletions : Option UInt32
  minSize : Option UInt32
  maxSize : Option UInt32
deriving DecidableEq, Repr

/-- When a workflow is complete, how its jobs are named, and what events do.  The manager acts on
it. -/
structure CompletionPolicy where
  threshold : UInt32
  jobNamePrefix : String
  events : List WorkflowEvent
deriving DecidableEq, Repr

/-- The registry settings of one stage. -/
structure RegistryOverride where
  push : String
  pull : String
  host : String
  plainHttp : Option Bool
deriving DecidableEq, Repr

/-- The resources of a stage and how it is run. -/
structure JobConfig where
  nodes : UInt32
  coresPerTask : UInt32
  /-- Without a number the runtime decides. -/
  tasks : Option UInt32
  gpus : UInt32
  retryFailure : Bool
  walltime : Option String
  pullPolicy : String
  gpuLabel : String
  command : Option String
deriving DecidableEq, Repr

/-- A stage of a workflow. -/
structure JobStep where
  name : String
  config : JobConfig
  registry : RegistryOverride
  arch : String
  appConfig : String
  properties : TextMap String
  image : String
  interactive : Bool
  workdir : String
  script : String
deriving DecidableEq

/-- What is desired of a workflow. -/
structure WorkflowSpec where
  registry : RegistryPolicy
  manager : ManagerPolicy
  cluster : ClusterPolicy
  completion : CompletionPolicy
  jobs : List JobStep
deriving DecidableEq

/-- Who a workflow is.  The names of all its objects follow from this. -/
structure Identity where
  name : String
  inNamespace : String
  uid : Option String
deriving DecidableEq, Repr

structure Workflow where
  apiVersion : String
  kind : String
  identity : Identity
  spec : WorkflowSpec
deriving DecidableEq

def RegistryPolicy.unset : RegistryPolicy := ⟨"", "", 0, none, false, 0, "", "", ""⟩

def ManagerPolicy.unset : ManagerPolicy := ⟨0, "", 0, 0, false, "", "", ""⟩

def ClusterPolicy.unset : ClusterPolicy := ⟨0, false⟩

def CompletionPolicy.unset : CompletionPolicy := ⟨0, "", []⟩

def RegistryOverride.unset : RegistryOverride := ⟨"", "", "", none⟩

def JobConfig.unset : JobConfig := ⟨0, 0, none, 0, false, none, "", "", none⟩

def WorkflowSpec.unset : WorkflowSpec := ⟨.unset, .unset, .unset, .unset, []⟩

/-- Whether the registry is reached without encryption, as it is unless the policy says
otherwise. -/
def RegistryPolicy.usesPlainHttp (p : RegistryPolicy) : Bool := p.plainHttp.getD true

/-- Whether the registry is reached without encryption, as it is unless the override says
otherwise. -/
def RegistryOverride.usesPlainHttp (o : RegistryOverride) : Bool := o.plainHttp.getD true

/-- Whether a stage has registry settings of its own: a host, a tag to pull or a tag to push. -/
def JobStep.hasRegistry (j : JobStep) : Bool :=
  !(j.registry.host.isEmpty && j.registry.pull.isEmpty && j.registry.push.isEmpty)

def WorkflowSpec.job? (s : WorkflowSpec) (name : String) : Option JobStep :=
  s.jobs.find? (·.name == name)

end WorkflowOperator
