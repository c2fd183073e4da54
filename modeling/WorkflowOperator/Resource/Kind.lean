/-!
# Kinds of objects

The nine kinds of cluster objects that a workflow owns, with the group of the cluster's interface
that serves them and whether they live inside a namespace.
-/

namespace WorkflowOperator

/-- The kind of an owned object, in the order in which a store lists its objects. -/
inductive ResourceKind
  | service
  | serviceAccount
  | clusterRole
  | clusterRoleBinding
  | role
  | roleBinding
  | statefulSet
  | configMap
  | deployment
deriving DecidableEq, Repr, Inhabited

namespace ResourceKind

def all : List ResourceKind :=
  [.service, .serviceAccount, .clusterRole, .clusterRoleBinding, .role, .roleBinding,
    .statefulSet, .configMap, .deployment]

def name : ResourceKind → String
  | .service => "Service"
  | .serviceAccount => "ServiceAccount"
  | .clusterRole => "ClusterRole"
  | .clusterRoleBinding => "ClusterRoleBinding"
  | .role => "Role"
  | .roleBinding => "RoleBinding"
  | .statefulSet => "StatefulSet"
  | .configMap => "ConfigMap"
  | .deployment => "Deployment"

def ofName? (s : String) : Option ResourceKind := all.find? fun k => k.name == s

def unknown (s : String) : String := "Unknown resource kind: " ++ s

/-- The versioned interface group that serves a kind. -/
def apiVersion : ResourceKind → String
  | .service | .serviceAccount | .configMap => "v1"
  | .clusterRole | .clusterRoleBinding | .role | .roleBinding => "rbac.authorization.k8s.io/v1"
  | .statefulSet | .deployment => "apps/v1"

/-- Whether objects of a kind belong to the cluster and to no namespace. -/
def isClusterScoped : ResourceKind → Bool
  | .clusterRole | .clusterRoleBinding => true
  | _ => false

def rank : ResourceKind → Nat
  | .service => 0
  | .serviceAccount => 1
  | .clusterRole => 2
  | .clusterRoleBinding => 3
  | .role => 4
  | .roleBinding => 5
  | .statefulSet => 6
  | .configMap => 7
  | .deployment => 8

theorem rank_injective {a b : ResourceKind} (h : a.rank = b.rank) : a = b := by
  cases a <;> cases b <;> simp_all [rank]

theorem ofName?_name (k : ResourceKind) : ofName? k.name = some k := by cases k <;> decide

end ResourceKind

end WorkflowOperator
