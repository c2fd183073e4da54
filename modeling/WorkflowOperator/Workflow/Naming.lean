import WorkflowOperator.Workflow.Basic

/-!
# Names and addresses

The names of a workflow's objects and the address of its registry.  They follow from the identity and
the registry policy alone and are stored nowhere.
-/

namespace WorkflowOperator

def standardRegistryPort : UInt16 := 5000

def standardRegistryName : String := "registry"

/-- The label that marks the objects of a workflow. -/
def selectorLabel : String := "app"

def RegistryPolicy.effectiveName (p : RegistryPolicy) : String :=
  if p.name.isEmpty then standardRegistryName else p.name

def RegistryPolicy.effectivePort (p : RegistryPolicy) : UInt16 :=
  if p.port = 0 then standardRegistryPort else p.port

def RegistryPolicy.isInCluster (p : RegistryPolicy) : Bool := p.host.isEmpty

namespace Workflow

def name (w : Workflow) : String := w.identity.name

def inNamespace (w : Workflow) : String := w.identity.inNamespace

def managerName (w : Workflow) : String := w.name ++ "-manager"

def clusterRoleName (w : Workflow) : String := w.name ++ "-cluster-roles"

def roleName (w : Workflow) : String := w.name ++ "-roles"

def serviceName (w : Workflow) : String := w.name

def serviceAccountName (w : Workflow) : String := w.name

def registryName (w : Workflow) : String := w.spec.registry.effectiveName

def selector (w : Workflow) : TextMap String := .singleton selectorLabel w.name

def hasInClusterRegistry (w : Workflow) : Bool := w.spec.registry.isInCluster

/-- The host of the first replica of the registry in the cluster, behind the headless service. -/
def registryHost (w : Workflow) : String :=
  w.registryName ++ "-0." ++ w.serviceName ++ "." ++ w.inNamespace ++ ".svc.cluster.local"

/-- The address of the registry: of its first replica and its port inside the cluster, or the host
outside with its port if one is set. -/
def registryAddress (w : Workflow) : String :=
  let registry := w.spec.registry
  if registry.isInCluster then w.registryHost ++ ":" ++ toString registry.effectivePort.toNat
  else if registry.port = 0 then registry.host
  else registry.host ++ ":" ++ toString registry.port.toNat

end Workflow

def WorkflowSpec.stageNames (s : WorkflowSpec) : List String := s.jobs.map (·.name)

end WorkflowOperator
