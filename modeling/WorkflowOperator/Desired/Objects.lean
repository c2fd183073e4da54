import WorkflowOperator.Manager.Files
import WorkflowOperator.Resource.Basic

/-!
# The objects of a workflow

What is created for a workflow: a headless service, access control for the manager, a registry, and
the manager with its files.
-/

namespace WorkflowOperator

def accessControlGroup : String := "rbac.authorization.k8s.io"

/-- The label of the nodes of an instance type. -/
def instanceTypeLabel : String := "node.kubernetes.io/instance-type"

def managerVolume : String := "manager-entrypoint"

/-- The name of the manager's pod under the subdomain of the workflow. -/
def managerHostname : String := "manager"

/-- The labels of the nodes that a pod is bound to; without an instance type it is bound to none. -/
def nodeSelectorFor (instanceType : String) : TextMap String :=
  if instanceType.isEmpty then ∅ else .singleton instanceTypeLabel instanceType

def withoutSlashes (s : String) : String :=
  String.ofList (s.toList.reverse.dropWhile (· == '/')).reverse

namespace Workflow

def keyOf (w : Workflow) (kind : ResourceKind) (name : String) : ObjectKey :=
  .of kind name w.inNamespace

def object (w : Workflow) (name : String) (body : Body) : Resource :=
  ⟨.of (w.keyOf body.kind name) w.selector, body⟩

/-- The headless service over all pods of a workflow, behind which they have stable names. -/
def headlessService (w : Workflow) : Resource :=
  w.object w.serviceName (.service ⟨"None", w.selector⟩)

def subject (w : Workflow) : Subject := ⟨"ServiceAccount", w.serviceAccountName, w.inNamespace⟩

def serviceAccount (w : Workflow) : Resource := w.object w.serviceAccountName .serviceAccount

/-- The role that may look at nodes. -/
def clusterRole (w : Workflow) : Resource :=
  w.object w.clusterRoleName (.clusterRole [⟨[""], ["nodes"], ["list", "get", "watch"]⟩])

def clusterRoleBinding (w : Workflow) : Resource :=
  w.object w.clusterRoleName
    (.clusterRoleBinding [w.subject] ⟨accessControlGroup, "ClusterRole", w.clusterRoleName⟩)

/-- The role that may do anything to the pods, jobs and files that the manager drives. -/
def role (w : Workflow) : Resource :=
  w.object w.roleName (.role [⟨["", "batch"], ["pods", "jobs", "configmaps", "jobs/status"],
    ["list", "get", "patch", "create", "delete", "watch"]⟩])

def roleBinding (w : Workflow) : Resource :=
  w.object w.roleName (.roleBinding [w.subject] ⟨accessControlGroup, "Role", w.roleName⟩)

def accessControl (w : Workflow) : List Resource :=
  [w.serviceAccount, w.clusterRole, w.clusterRoleBinding, w.role, w.roleBinding]

def registryContainer (w : Workflow) : Container :=
  ⟨"registry", w.spec.registry.image, w.spec.registry.pullPolicy, [], []⟩

def registrySet (w : Workflow) : Resource :=
  w.object w.registryName <| .statefulSet w.serviceName {
    replicas := w.spec.registry.replicas
    selector := w.selector
    template := {
      labels := w.selector
      spec := {
        serviceAccountName := none
        hostname := none
        subdomain := w.serviceName
        containers := [w.registryContainer]
        volumes := []
        nodeSelector := nodeSelectorFor w.spec.registry.nodeSelector } } }

def managerConfigMap (c : Config) (w : Workflow) : Except Template.Fault Resource :=
  (w.managerFiles c).map fun files => w.object w.managerName (.configMap files)

/-- The container of the manager, which runs the entrypoint among the mounted files. -/
def managerContainer (c : Config) (w : Workflow) : Container :=
  let mountPath := withoutSlashes c.manager.mountPath
  ⟨"manager", w.spec.manager.image, w.spec.manager.pullPolicy,
    ["/bin/bash", mountPath ++ "/" ++ c.manager.entrypoint],
    [⟨managerVolume, mountPath ++ "/"⟩]⟩

def managerDeployment (c : Config) (w : Workflow) : Resource :=
  w.object w.managerName <| .deployment {
    replicas := w.spec.manager.replicas
    selector := w.selector
    template := {
      labels := w.selector
      spec := {
        serviceAccountName := some w.serviceAccountName
        hostname := some managerHostname
        subdomain := w.serviceName
        containers := [w.managerContainer c]
        volumes := [⟨managerVolume, w.managerName⟩]
        nodeSelector := nodeSelectorFor w.spec.manager.nodeSelector } } }

end Workflow

end WorkflowOperator
