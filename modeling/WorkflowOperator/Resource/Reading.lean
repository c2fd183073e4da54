import WorkflowOperator.Error
import WorkflowOperator.Json.Decoder
import WorkflowOperator.Resource.Manifest

/-!
# Reading manifests

Objects read back from JSON.  The kind decides what body an object has; the version of the interface
group follows from it and is not read.
-/

namespace WorkflowOperator

open Json Json.Decoder

def OwnerReference.decoder : Decoder OwnerReference := fun v => do
  let ms ← members ["apiVersion", "kind", "name", "uid", "controller", "blockOwnerDeletion"] v
  let apiVersion ← required ms "apiVersion" text
  let kind ← required ms "kind" text
  let name ← required ms "name" text
  let uid ← required ms "uid" text
  let controller ← required ms "controller" flag
  let blockOwnerDeletion ← required ms "blockOwnerDeletion" flag
  return ⟨apiVersion, kind, name, uid, controller, blockOwnerDeletion⟩

def timestamp : Decoder Timestamp := fun v => do
  match Timestamp.ofText? (← text v) with
  | some t => return t
  | none => throw (.unexpected "a point in time")

def ObjectMeta.decoder : Decoder ObjectMeta := fun v => do
  let ms ← members
    ["name", "namespace", "labels", "ownerReferences", "uid", "creationTimestamp"] v
  let name ← required ms "name" text
  let inNamespace ← withDefault ms "namespace" (nullable text) none
  let labels ← withDefault ms "labels" (textMap text) ∅
  let owners ← withDefault ms "ownerReferences" (list OwnerReference.decoder) []
  let uid ← withDefault ms "uid" (nullable text) none
  let created ← withDefault ms "creationTimestamp" (nullable timestamp) none
  return ⟨name, inNamespace, labels, owners, uid, created⟩

def ServiceSpec.decoder : Decoder ServiceSpec := fun v => do
  let ms ← members ["clusterIP", "selector"] v
  let clusterIP ← required ms "clusterIP" text
  let selector ← required ms "selector" (textMap text)
  return ⟨clusterIP, selector⟩

def PolicyRule.decoder : Decoder PolicyRule := fun v => do
  let ms ← members ["apiGroups", "resources", "verbs"] v
  let apiGroups ← required ms "apiGroups" (list text)
  let resources ← required ms "resources" (list text)
  let verbs ← required ms "verbs" (list text)
  return ⟨apiGroups, resources, verbs⟩

def Subject.decoder : Decoder Subject := fun v => do
  let ms ← members ["kind", "name", "namespace"] v
  let kind ← required ms "kind" text
  let name ← required ms "name" text
  let inNamespace ← required ms "namespace" text
  return ⟨kind, name, inNamespace⟩

def RoleRef.decoder : Decoder RoleRef := fun v => do
  let ms ← members ["apiGroup", "kind", "name"] v
  let apiGroup ← required ms "apiGroup" text
  let kind ← required ms "kind" text
  let name ← required ms "name" text
  return ⟨apiGroup, kind, name⟩

def VolumeMount.decoder : Decoder VolumeMount := fun v => do
  let ms ← members ["name", "mountPath"] v
  let name ← required ms "name" text
  let mountPath ← required ms "mountPath" text
  return ⟨name, mountPath⟩

def Container.decoder : Decoder Container := fun v => do
  let ms ← members ["name", "image", "imagePullPolicy", "command", "volumeMounts"] v
  let name ← required ms "name" text
  let image ← required ms "image" text
  let imagePullPolicy ← required ms "imagePullPolicy" text
  let command ← withDefault ms "command" (list text) []
  let volumeMounts ← withDefault ms "volumeMounts" (list VolumeMount.decoder) []
  return ⟨name, image, imagePullPolicy, command, volumeMounts⟩

/-- The name of a configuration object that a volume holds. -/
def volumeSource : Decoder String := fun v => do
  let ms ← members ["name"] v
  required ms "name" text

def Volume.decoder : Decoder Volume := fun v => do
  let ms ← members ["name", "configMap"] v
  let name ← required ms "name" text
  let configMap ← required ms "configMap" volumeSource
  return ⟨name, configMap⟩

def PodSpec.decoder : Decoder PodSpec := fun v => do
  let ms ← members
    ["serviceAccountName", "hostname", "subdomain", "containers", "volumes", "nodeSelector"] v
  let serviceAccountName ← withDefault ms "serviceAccountName" (nullable text) none
  let hostname ← withDefault ms "hostname" (nullable text) none
  let subdomain ← required ms "subdomain" text
  let containers ← required ms "containers" (list Container.decoder)
  let volumes ← withDefault ms "volumes" (list Volume.decoder) []
  let nodeSelector ← withDefault ms "nodeSelector" (textMap text) ∅
  return ⟨serviceAccountName, hostname, subdomain, containers, volumes, nodeSelector⟩

def PodTemplate.decoder : Decoder PodTemplate := fun v => do
  let ms ← members ["labels", "spec"] v
  let labels ← required ms "labels" (textMap text)
  let spec ← required ms "spec" PodSpec.decoder
  return ⟨labels, spec⟩

def Workload.ofMembers (ms : Members) : Except Fault Workload := do
  let replicas ← required ms "replicas" word32
  let selector ← required ms "selector" (textMap text)
  let template ← required ms "template" PodTemplate.decoder
  return ⟨replicas, selector, template⟩

def statefulSetSpec : Decoder Body := fun v => do
  let ms ← members ["serviceName", "replicas", "selector", "template"] v
  let serviceName ← required ms "serviceName" text
  let workload ← Workload.ofMembers ms
  return .statefulSet serviceName workload

def deploymentSpec : Decoder Body := fun v => do
  let ms ← members ["replicas", "selector", "template"] v
  let workload ← Workload.ofMembers ms
  return .deployment workload

/-- The names of the members that are the body of an object of a kind. -/
def ResourceKind.bodyFields : ResourceKind → List String
  | .service | .statefulSet | .deployment => ["spec"]
  | .serviceAccount => []
  | .clusterRole | .role => ["rules"]
  | .clusterRoleBinding | .roleBinding => ["subjects", "roleRef"]
  | .configMap => ["data"]

def Body.ofMembers (ms : Members) : ResourceKind → Except Fault Body
  | .service => .service <$> required ms "spec" ServiceSpec.decoder
  | .serviceAccount => return .serviceAccount
  | .clusterRole => .clusterRole <$> required ms "rules" (list PolicyRule.decoder)
  | .role => .role <$> required ms "rules" (list PolicyRule.decoder)
  | .clusterRoleBinding => do
    let subjects ← required ms "subjects" (list Subject.decoder)
    let roleRef ← required ms "roleRef" RoleRef.decoder
    return .clusterRoleBinding subjects roleRef
  | .roleBinding => do
    let subjects ← required ms "subjects" (list Subject.decoder)
    let roleRef ← required ms "roleRef" RoleRef.decoder
    return .roleBinding subjects roleRef
  | .statefulSet => required ms "spec" statefulSetSpec
  | .configMap => .configMap <$> required ms "data" (textMap text)
  | .deployment => required ms "spec" deploymentSpec

namespace Resource

/-- The kind of an object and the rest of it.  In an array the kind stands first. -/
def splitKind : Decoder (ResourceKind × Json) := fun v => do
  let (tag, rest) ← match v with
    | .object ms => required (Json.object ms).member? "kind" (fun tag => .ok (tag, .object ms))
    | .array (tag :: rest) => pure (tag, .array rest)
    | _ => throw (.missing "kind")
  match ResourceKind.ofName? (← text tag) with
  | some kind => return (kind, rest)
  | none => throw (.unexpected "a kind of object")

def decoder : Decoder Resource := fun v => do
  let (kind, rest) ← splitKind v
  let ms ← members ("metadata" :: kind.bodyFields) rest
  let metadata ← required ms "metadata" ObjectMeta.decoder
  let body ← Body.ofMembers ms kind
  return ⟨metadata, body⟩

def ofJson (v : Json) : Outcome Resource :=
  (decoder v).mapError fun fault => .json fault.message

end Resource

end WorkflowOperator
