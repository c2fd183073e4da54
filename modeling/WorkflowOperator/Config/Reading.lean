import WorkflowOperator.Config.Basic
import WorkflowOperator.Error
import WorkflowOperator.FileFault
import WorkflowOperator.Text.Count
import WorkflowOperator.Toml.Document

/-!
# Reading the configuration

A setting is taken from its environment variable, else from the configuration file, else it is the
built-in one, whatever the other settings are.
-/

namespace WorkflowOperator

open Toml (Value)

/-- The settings of a section by their names. -/
abbrev Settings := String → Option Value

namespace Settings

/-- The settings of a section with the given names.  An array gives them by position; a date is a
section without any. -/
def ofValue? (names : List String) : Value → Option Settings
  | .table entries => some fun name => (entries.find? fun e => e.1 == name).map Prod.snd
  | .array items => some fun name => items[names.idxOf name]?
  | .datetime => some fun _ => none
  | _ => none

/-- A text, or another if there is none. -/
def text (s : Settings) (name default : String) : Option String :=
  match s name with
  | none => some default
  | some (.text t) => some t
  | some _ => none

/-- A number of 32 bits, or another if there is none. -/
def count (s : Settings) (name : String) (default : UInt32) : Option UInt32 :=
  match s name with
  | none => some default
  | some (.integer n) => if 0 ≤ n ∧ n < 0x100000000 then some (UInt32.ofNat n.toNat) else none
  | some _ => none

end Settings

def ImageDefaults.ofValue? (v : Value) : Option ImageDefaults := do
  let s ← Settings.ofValue? ["manager", "registry"] v
  return {
    manager := ← s.text "manager" ImageDefaults.standard.manager
    registry := ← s.text "registry" ImageDefaults.standard.registry }

def JobDefaults.ofValue? (v : Value) : Option JobDefaults := do
  let s ← Settings.ofValue?
    ["nodes", "cores_per_task", "arch", "workdir", "gpu_label", "pull_policy"] v
  return {
    nodes := ← s.count "nodes" JobDefaults.standard.nodes
    coresPerTask := ← s.count "cores_per_task" JobDefaults.standard.coresPerTask
    arch := ← s.text "arch" JobDefaults.standard.arch
    workdir := ← s.text "workdir" JobDefaults.standard.workdir
    gpuLabel := ← s.text "gpu_label" JobDefaults.standard.gpuLabel
    pullPolicy := ← s.text "pull_policy" JobDefaults.standard.pullPolicy }

def ToolSource.ofValue? (v : Value) : Option ToolSource := do
  let s ← Settings.ofValue? ["version", "base_url"] v
  return {
    version := ← s.text "version" ToolSource.standard.version
    baseUrl := ← s.text "base_url" ToolSource.standard.baseUrl }

def ManagerLayout.ofValue? (v : Value) : Option ManagerLayout := do
  let s ← Settings.ofValue? ["mount_path", "command", "entrypoint"] v
  return {
    mountPath := ← s.text "mount_path" ManagerLayout.standard.mountPath
    command := ← s.text "command" ManagerLayout.standard.command
    entrypoint := ← s.text "entrypoint" ManagerLayout.standard.entrypoint }

namespace Config

/-- A section, or the built-in one if it is left out. -/
def sectionOr {α : Type} (s : Settings) (name : String) (read : Value → Option α)
    (default : α) : Option α :=
  match s name with
  | none => some default
  | some v => read v

def ofValue? (v : Value) : Option Config := do
  let s ← Settings.ofValue? ["images", "jobs", "tools", "manager"] v
  return {
    images := ← sectionOr s "images" ImageDefaults.ofValue? .standard
    jobs := ← sectionOr s "jobs" JobDefaults.ofValue? .standard
    tools := ← sectionOr s "tools" ToolSource.ofValue? .standard
    manager := ← sectionOr s "manager" ManagerLayout.ofValue? .standard }

def ofText? (text : String) : Option Config := (Toml.ofText? text).bind ofValue?

/-- The environment variables by their names. -/
abbrev Environment := String → Option String

/-- A configuration with the settings that environment variables make. -/
def withEnvironment (env : Environment) (c : Config) : Config where
  images := {
    manager := (env "STAGEWRIGHT_MANAGER_IMAGE").getD c.images.manager
    registry := (env "STAGEWRIGHT_REGISTRY_IMAGE").getD c.images.registry }
  jobs := { c.jobs with
    coresPerTask :=
      ((env "STAGEWRIGHT_CORES_PER_TASK").bind Text.readCount?).getD c.jobs.coresPerTask
    workdir := (env "STAGEWRIGHT_WORKDIR").getD c.jobs.workdir }
  tools := { c.tools with version := (env "STAGEWRIGHT_ORAS_VERSION").getD c.tools.version }
  manager := c.manager

/-- The usual place of the configuration file: in the directory for configurations that the environment
names by a path from the root, or else in the one below the home directory. -/
def usualPath (env : Environment) : String :=
  let isFromRoot (path : String) : Bool := path.toList.head? == some '/'
  match (env "XDG_CONFIG_HOME").filter isFromRoot, env "HOME" with
  | some directory, _ => directory ++ "/stagewright/config.toml"
  | none, some home => home ++ "/.config/stagewright/config.toml"
  | none, none => ".stagewright/config.toml"

/-- The configuration of a file that was asked for, whose text or lack is given. -/
def ofFile (env : Environment) (path : String) (text : Except FileFault String) :
    Outcome Config :=
  match text with
  | .error fault => .error (.config ("Failed to read " ++ path ++ ": " ++ fault.message))
  | .ok text =>
    match ofText? text with
    | some c => .ok (c.withEnvironment env)
    | none => .error (.config ("Failed to parse " ++ path ++ ": not a configuration"))

/-- The configuration of the file at the usual place, which need not be there or be readable. -/
def ofUsualFile (env : Environment) (text : Except FileFault String) : Config :=
  ((text.toOption.bind ofText?).getD .standard).withEnvironment env

end Config

end WorkflowOperator
