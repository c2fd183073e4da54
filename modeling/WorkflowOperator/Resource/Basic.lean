import WorkflowOperator.Resource.Key
import WorkflowOperator.SortedMap
import WorkflowOperator.Timestamp

/-!
# Objects of the cluster

The objects that a workflow owns, as plain data: metadata that every object has, and a body that
differs from kind to kind.
-/

namespace WorkflowOperator

/-- A reference to an owner, with whom an object is deleted. -/
structure OwnerReference where
  apiVersion : String
  kind : String
  name : String
  uid : String
  /-- Whether the owner manages the object. -/
  controller : Bool
  blockOwnerDeletion : Bool
deriving DecidableEq, Repr

/-- What every object has.  The store assigns the identifier and the time of creation. -/
structure ObjectMeta where
  name : String
  inNamespace : Option String
  labels : TextMap String
  owners : List OwnerReference
  uid : Option String
  created : Option Timestamp
deriving DecidableEq

/-- Metadata that only says where an object is and what labels it has. -/
def ObjectMeta.of (key : ObjectKey) (labels : TextMap String) : ObjectMeta :=
  ⟨key.name, key.inNamespace, labels, [], none, none⟩

/-- How pods are reached by name. -/
structure ServiceSpec where
  /-- The text `None` makes a service headless. -/
  clusterIP : String
  selector : TextMap String
deriving DecidableEq

/-- What may be done to which objects. -/
structure PolicyRule where
  apiGroups : List String
  resources : List String
  verbs : List String
deriving DecidableEq, Repr

/-- Who is given a role. -/
structure Subject where
  kind : String
  name : String
  inNamespace : String
deriving DecidableEq, Repr

/-- The role that is given. -/
structure RoleRef where
  apiGroup : String
  kind : String
  name : String
deriving DecidableEq, Repr

/-- Where a container sees a volume. -/
structure VolumeMount where
  name : String
  mountPath : String
deriving DecidableEq, Repr

structure Container where
  name : String
  image : String
  imagePullPolicy : String
  command : List String
  volumeMounts : List VolumeMount
deriving DecidableEq, Repr

/-- A volume that holds the data of a configuration object. -/
structure Volume where
  name : String
  configMap : String
deriving DecidableEq, Repr

/-- How a pod is run. -/
structure PodSpec where
  serviceAccountName : Option String
  /-- Pods of a stateful set have none and are named by their number. -/
  hostname : Option String
  subdomain : String
  containers : List Container
  volumes : List Volume
  nodeSelector : TextMap String
deriving DecidableEq

/-- What the pods of a workload are made from. -/
structure PodTemplate where
  labels : TextMap String
  spec : PodSpec
deriving DecidableEq

/-- A number of pods made from one template. -/
structure Workload where
  replicas : UInt32
  selector : TextMap String
  template : PodTemplate
deriving DecidableEq

/-- What makes up an object beside its metadata. -/
inductive Body
  | service (spec : ServiceSpec)
  | serviceAccount
  | clusterRole (rules : List PolicyRule)
  | clusterRoleBinding (subjects : List Subject) (roleRef : RoleRef)
  | role (rules : List PolicyRule)
  | roleBinding (subjects : List Subject) (roleRef : RoleRef)
  /-- Its pods have stable names behind the service. -/
  | statefulSet (serviceName : String) (workload : Workload)
  | configMap (data : TextMap String)
  | deployment (workload : Workload)
deriving DecidableEq

def Body.kind : Body → ResourceKind
  | .service _ => .service
  | .serviceAccount => .serviceAccount
  | .clusterRole _ => .clusterRole
  | .clusterRoleBinding .. => .clusterRoleBinding
  | .role _ => .role
  | .roleBinding .. => .roleBinding
  | .statefulSet .. => .statefulSet
  | .configMap _ => .configMap
  | .deployment _ => .deployment

/-- An object of the cluster. -/
structure Resource where
  metadata : ObjectMeta
  body : Body
deriving DecidableEq

namespace Resource

def kind (r : Resource) : ResourceKind := r.body.kind

def key (r : Resource) : ObjectKey := ⟨r.kind, r.metadata.name, r.metadata.inNamespace⟩

/-- An object with the given owner, in place of a reference to an owner with the same identifier. -/
def withOwner (owner : OwnerReference) (r : Resource) : Resource :=
  { r with metadata := { r.metadata with
    owners := r.metadata.owners.filter (fun o => o.uid != owner.uid) ++ [owner] } }

def isOwnedBy (uids : List String) (r : Resource) : Bool :=
  r.metadata.owners.any fun o => uids.contains o.uid

@[simp] theorem key_withOwner (owner : OwnerReference) (r : Resource) :
    (r.withOwner owner).key = r.key := rfl

@[simp] theorem body_withOwner (owner : OwnerReference) (r : Resource) :
    (r.withOwner owner).body = r.body := rfl

end Resource

end WorkflowOperator
