import WorkflowOperator.Json
import WorkflowOperator.Resource.Basic

/-!
# Manifests

Objects as JSON.  Members without a value, and empty lists and maps where they are optional, are left
out.
-/

namespace WorkflowOperator

open Json (ofStrings ofTextMap ofMembers optional unlessEmpty)

def unlessEmptyMap (name : String) (m : TextMap String) : List (String × Json) :=
  if m.isEmpty then [] else [(name, ofTextMap m)]

def countJson (n : UInt32) : Json := .ofNat n.toNat

def OwnerReference.toJson (o : OwnerReference) : Json :=
  ofMembers [
    ("apiVersion", .string o.apiVersion),
    ("kind", .string o.kind),
    ("name", .string o.name),
    ("uid", .string o.uid),
    ("controller", .bool o.controller),
    ("blockOwnerDeletion", .bool o.blockOwnerDeletion)]

def ObjectMeta.toJson (m : ObjectMeta) : Json :=
  ofMembers <|
    [("name", .string m.name)] ++
    optional "namespace" .string m.inNamespace ++
    unlessEmptyMap "labels" m.labels ++
    unlessEmpty "ownerReferences" OwnerReference.toJson m.owners ++
    optional "uid" .string m.uid ++
    optional "creationTimestamp" (fun t => .string t.text) m.created

def ServiceSpec.toJson (s : ServiceSpec) : Json :=
  ofMembers [("clusterIP", .string s.clusterIP), ("selector", ofTextMap s.selector)]

def PolicyRule.toJson (r : PolicyRule) : Json :=
  ofMembers [
    ("apiGroups", ofStrings r.apiGroups),
    ("resources", ofStrings r.resources),
    ("verbs", ofStrings r.verbs)]

def Subject.toJson (s : Subject) : Json :=
  ofMembers [
    ("kind", .string s.kind), ("name", .string s.name), ("namespace", .string s.inNamespace)]

def RoleRef.toJson (r : RoleRef) : Json :=
  ofMembers [("apiGroup", .string r.apiGroup), ("kind", .string r.kind), ("name", .string r.name)]

def VolumeMount.toJson (m : VolumeMount) : Json :=
  ofMembers [("name", .string m.name), ("mountPath", .string m.mountPath)]

def Container.toJson (c : Container) : Json :=
  ofMembers <|
    [("name", .string c.name),
      ("image", .string c.image),
      ("imagePullPolicy", .string c.imagePullPolicy)] ++
    unlessEmpty "command" .string c.command ++
    unlessEmpty "volumeMounts" VolumeMount.toJson c.volumeMounts

def Volume.toJson (v : Volume) : Json :=
  ofMembers [("name", .string v.name), ("configMap", ofMembers [("name", .string v.configMap)])]

def PodSpec.toJson (p : PodSpec) : Json :=
  ofMembers <|
    optional "serviceAccountName" .string p.serviceAccountName ++
    optional "hostname" .string p.hostname ++
    [("subdomain", .string p.subdomain), ("containers", .array (p.containers.map Container.toJson))] ++
    unlessEmpty "volumes" Volume.toJson p.volumes ++
    unlessEmptyMap "nodeSelector" p.nodeSelector

def PodTemplate.toJson (t : PodTemplate) : Json :=
  ofMembers [("labels", ofTextMap t.labels), ("spec", t.spec.toJson)]

def Workload.members (w : Workload) : List (String × Json) :=
  [("replicas", countJson w.replicas),
    ("selector", ofTextMap w.selector),
    ("template", w.template.toJson)]

def Body.members : Body → List (String × Json)
  | .service spec => [("spec", spec.toJson)]
  | .serviceAccount => []
  | .clusterRole rules | .role rules => [("rules", .array (rules.map PolicyRule.toJson))]
  | .clusterRoleBinding subjects roleRef | .roleBinding subjects roleRef =>
    [("subjects", .array (subjects.map Subject.toJson)), ("roleRef", roleRef.toJson)]
  | .statefulSet serviceName workload =>
    [("spec", ofMembers (("serviceName", .string serviceName) :: workload.members))]
  | .configMap data => [("data", ofTextMap data)]
  | .deployment workload => [("spec", ofMembers workload.members)]

def Resource.manifest (r : Resource) : Json :=
  ofMembers <|
    [("kind", .string r.kind.name),
      ("apiVersion", .string r.kind.apiVersion),
      ("metadata", r.metadata.toJson)] ++
    r.body.members

end WorkflowOperator
