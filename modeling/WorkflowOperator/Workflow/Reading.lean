import WorkflowOperator.Error
import WorkflowOperator.FileFault
import WorkflowOperator.Text.Blank
import WorkflowOperator.Workflow.Basic
import WorkflowOperator.Yaml.Decoder

/-!
# Reading workflow documents

The names of the entries of a workflow document, what an entry holds when it is left out, and what is
said of a document that cannot be read.
-/

namespace WorkflowOperator

open Yaml Yaml.Decoder

def RegistryPolicy.decoder : Decoder RegistryPolicy :=
  record [
    .of "host" text fun s v => { s with host := v },
    .of "name" text fun s v => { s with name := v },
    .of "port" word16 fun s v => { s with port := v },
    .of "plainHttp" (optional flag) fun s v => { s with plainHttp := v },
    (Field.of "tlsVerify" flag fun s v => { s with tlsVerify := v }).alsoNamed "TLSVerify",
    .of "replicas" word32 fun s v => { s with replicas := v },
    .of "image" text fun s v => { s with image := v },
    .of "pullPolicy" text fun s v => { s with pullPolicy := v },
    .of "nodeSelector" text fun s v => { s with nodeSelector := v }] [] .unset

def ManagerPolicy.decoder : Decoder ManagerPolicy :=
  record [
    .of "replicas" word32 fun s v => { s with replicas := v },
    .of "subdomain" text fun s v => { s with subdomain := v },
    .of "maxNodes" word32 fun s v => { s with maxNodes := v },
    .of "coresPerNode" word32 fun s v => { s with coresPerNode := v },
    .of "interactive" flag fun s v => { s with interactive := v },
    .of "image" text fun s v => { s with image := v },
    .of "pullPolicy" text fun s v => { s with pullPolicy := v },
    .of "nodeSelector" text fun s v => { s with nodeSelector := v }] [] .unset

def ClusterPolicy.decoder : Decoder ClusterPolicy :=
  record [
    .of "maxSize" word32 fun s v => { s with maxSize := v },
    .of "autoscale" flag fun s v => { s with autoscale := v }] [] .unset

/-- A condition: a number if the scalar spells one, a text if it spells no other type. -/
def Condition.decoder : Decoder Condition := fun anchors place n => do
  match ← Value.follow anchors n with
  | .scalar a tag style s =>
    if tag.any Core.isLocalTag then throw (.unexpected place none)
    else
      match Core.meaning tag style s with
      | .int i => return .equals (Binary64.ofInt i)
      | .float x => return .equals x
      | .text => return .expression s
      | _ => throw (mismatch place (.scalar a tag style s))
  | n =>
    let _ ← Value.ofNode anchors Value.maxDepth place n
    throw (.unexpected place none)

def WorkflowEvent.decoder : Decoder WorkflowEvent :=
  record [
    .of "metric" text fun s v => { s with metric := v },
    .of "when" (optional Condition.decoder) fun s v => { s with condition := v },
    .of "action" text fun s v => { s with action := v },
    .of "backoff" (optional int32) fun s v => { s with backoff := v },
    .of "repetitions" (optional word32) fun s v => { s with repetitions := v },
    .of "minCompletions" (optional word32) fun s v => { s with minCompletions := v },
    .of "minSize" (optional word32) fun s v => { s with minSize := v },
    .of "maxSize" (optional word32) fun s v => { s with maxSize := v }] ["metric", "action"]
    ⟨"", none, "", none, none, none, none, none⟩

def CompletionPolicy.decoder : Decoder CompletionPolicy :=
  record [
    (Field.of "completed" word32 fun s v => { s with threshold := v }).alsoNamed
      "completedThreshold",
    (Field.of "prefix" text fun s v => { s with jobNamePrefix := v }).alsoNamed "jobNamePrefix",
    .of "events" (list WorkflowEvent.decoder) fun s v => { s with events := v }] [] .unset

def RegistryOverride.decoder : Decoder RegistryOverride :=
  record [
    .of "push" text fun s v => { s with push := v },
    .of "pull" text fun s v => { s with pull := v },
    .of "host" text fun s v => { s with host := v },
    .of "plainHttp" (optional flag) fun s v => { s with plainHttp := v }] [] .unset

def JobConfig.decoder : Decoder JobConfig :=
  record [
    .of "nodes" word32 fun s v => { s with nodes := v },
    .of "coresPerTask" word32 fun s v => { s with coresPerTask := v },
    .of "tasks" (optional word32) fun s v => { s with tasks := v },
    .of "gpus" word32 fun s v => { s with gpus := v },
    .of "retryFailure" flag fun s v => { s with retryFailure := v },
    .of "walltime" (optional text) fun s v => { s with walltime := v },
    .of "pullPolicy" text fun s v => { s with pullPolicy := v },
    (Field.of "gpulabel" text fun s v => { s with gpuLabel := v }).alsoNamed "gpuLabel",
    .of "command" (optional text) fun s v => { s with command := v }] [] .unset

def JobStep.decoder : Decoder JobStep :=
  record [
    .of "name" text fun s v => { s with name := v },
    .of "config" JobConfig.decoder fun s v => { s with config := v },
    .of "registry" RegistryOverride.decoder fun s v => { s with registry := v },
    .of "arch" text fun s v => { s with arch := v },
    .of "appConfig" text fun s v => { s with appConfig := v },
    .of "properties" (textMap text) fun s v => { s with properties := v },
    .of "image" text fun s v => { s with image := v },
    .of "interactive" flag fun s v => { s with interactive := v },
    .of "workdir" text fun s v => { s with workdir := v },
    .of "script" text fun s v => { s with script := v }] ["name"]
    ⟨"", .unset, .unset, "", "", ∅, "", false, "", ""⟩

def WorkflowSpec.decoder : Decoder WorkflowSpec :=
  record [
    .of "registry" RegistryPolicy.decoder fun s v => { s with registry := v },
    .of "manager" ManagerPolicy.decoder fun s v => { s with manager := v },
    .of "cluster" ClusterPolicy.decoder fun s v => { s with cluster := v },
    .of "workflow" CompletionPolicy.decoder fun s v => { s with completion := v },
    .of "jobs" (list JobStep.decoder) fun s v => { s with jobs := v }] [] .unset

/-- An identity; the namespace is `default` when it is left out. -/
def Identity.decoder : Decoder Identity :=
  record [
    .of "name" text fun s v => { s with name := v },
    .of "namespace" text fun s v => { s with inNamespace := v },
    .of "uid" (optional text) fun s v => { s with uid := v }] ["name"] ⟨"", "default", none⟩

namespace Workflow

def defaultApiVersion : String := "stagewright.dev/v1alpha1"

def defaultKind : String := "Workflow"

def decoder : Decoder Workflow :=
  record [
    .of "apiVersion" text fun s v => { s with apiVersion := v },
    .of "kind" text fun s v => { s with kind := v },
    .of "metadata" Identity.decoder fun s v => { s with identity := v },
    .of "spec" WorkflowSpec.decoder fun s v => { s with spec := v }] ["metadata"]
    ⟨defaultApiVersion, defaultKind, ⟨"", "", none⟩, .unset⟩

/-- The text between the first two places where one text stands in front of another, if the first
is found at all. -/
def splitAt? (marker : List Char) : List Char → Option (List Char)
  | [] => if marker.isEmpty then some [] else none
  | c :: rest =>
    if marker.isPrefixOf (c :: rest) then some ((c :: rest).drop marker.length)
    else splitAt? marker rest

/-- The name that a message gives to a missing entry: what stands between the marker and the next
backquote. -/
def namedMissing? (message : String) : Option String :=
  (splitAt? missingMarker.toList message.toList).bind fun rest =>
    if rest.contains '\x60' then some (String.ofList (rest.takeWhile (· != '\x60'))) else none

/-- What is said of a document with a fault.  Which it is is decided on the words of the fault, so a
text that is quoted in them can be taken for the name of an entry. -/
def refusal (fault : Fault) : Error :=
  match namedMissing? fault.message with
  | some name => .parse ("Missing required field: " ++ name)
  | none => .parse ("Invalid YAML: " ++ fault.message)

/-- The workflow of a document. -/
def parse (document : String) : Outcome Workflow :=
  if Text.isBlankText document then .error (.parse "Empty workflow definition")
  else (ofText decoder document).mapError refusal

/-- The workflow in a file, whose text or lack is given. -/
def ofFileText (text : Except FileFault String) : Outcome Workflow := do
  parse (← text.mapError fun fault => .file fault.message)

end Workflow

end WorkflowOperator
