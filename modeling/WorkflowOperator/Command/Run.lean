import WorkflowOperator.Command.Invocation
import WorkflowOperator.Command.Program
import WorkflowOperator.Config.Reading
import WorkflowOperator.Converge.Run
import WorkflowOperator.Json.Printer
import WorkflowOperator.Resource.Manifest
import WorkflowOperator.Workflow.Reading
import WorkflowOperator.Yaml.Tree

/-!
# The commands

What each command does and prints.
-/

namespace WorkflowOperator.Command

open Program

def programName : String := "stagewright"

def versionText : String := programName ++ " 0.1.0\n"

def helpText : String :=
  "Converge multi-stage workflow specs into cluster objects\n\n" ++
  "Usage: " ++ programName ++ " [OPTIONS] <COMMAND>\n\n" ++
  "Commands:\n" ++
  "  validate     Validate a workflow spec and show its stages\n" ++
  "  names        Show derived object names and the registry address\n" ++
  "  render       Render the manager configuration entries\n" ++
  "  plan         Converge against an in-memory store and print the result\n" ++
  "  completions  Generate shell completions\n\n" ++
  "Options:\n" ++
  "  -c, --config <CONFIG>  Config file\n" ++
  "  -v, --verbose          Debug logging\n" ++
  "  -h, --help             Print help\n" ++
  "  -V, --version          Print version\n"

def completionScript (shell : Shell) : String :=
  let words := " ".intercalate commandNames
  match shell with
  | .bash => "complete -W '" ++ words ++ "' " ++ programName ++ "\n"
  | .zsh => "#compdef " ++ programName ++ "\n_arguments '1:command:(" ++ words ++ ")'\n"
  | .fish => "complete -c " ++ programName ++ " -f -n __fish_use_subcommand -a '" ++ words ++ "'\n"
  | .powerShell =>
    "Register-ArgumentCompleter -Native -CommandName " ++ programName ++ " -ScriptBlock \x7b '" ++
      words ++ "' -split ' ' \x7d\n"
  | .elvish =>
    "set edit:completion:arg-completer[" ++ programName ++ "] = \x7b|@args| put " ++ words ++
      " \x7d\n"

/-- The workflow in a file that must be there, validated. -/
def loadValidated (c : Config) (file : String) : Program Workflow := do
  unless ← .isThere file .done do .fail ⟨"File not found: " ++ file, none⟩
  let text ← readFile file
  let w ← ofOutcome (Workflow.ofFileText text)
  ofOutcome (w.validate c)

def validate (c : Config) (file : String) : Program Unit := do
  let w ← loadValidated c file
  let place := if w.hasInClusterRegistry then "in-cluster" else "external"
  say <|
    "✓ Workflow '" ++ w.name ++ "' in namespace '" ++ w.inNamespace ++ "' is valid\n\n" ++
    "  Stages: " ++ " -> ".intercalate w.spec.stageNames ++ "\n" ++
    "  Completions needed: " ++ toString w.spec.completion.threshold.toNat ++ "\n" ++
    "  Max size: " ++ toString w.spec.cluster.maxSize.toNat ++ "\n" ++
    "  Events: " ++ toString w.spec.completion.events.length ++ "\n" ++
    "  Registry: " ++ place ++ " (" ++ w.registryAddress ++ ")\n"

def namesJson (w : Workflow) : Json :=
  .ofMembers [
    ("service", .string w.serviceName),
    ("serviceAccount", .string w.serviceAccountName),
    ("clusterRole", .string w.clusterRoleName),
    ("role", .string w.roleName),
    ("manager", .string w.managerName),
    ("registry", if w.hasInClusterRegistry then .string w.registryName else .null),
    ("registryAddress", .string w.registryAddress),
    ("selector", .ofTextMap w.selector)]

def tableLine (row : String × String) : String :=
  row.1 ++ String.ofList (List.replicate (18 - row.1.length) ' ') ++ " " ++ row.2 ++ "\n"

def namesTable (w : Workflow) : String :=
  String.join <| List.map tableLine <|
    [("service", w.serviceName),
      ("service account", w.serviceAccountName),
      ("cluster role", w.clusterRoleName),
      ("role", w.roleName),
      ("manager", w.managerName)] ++
    (if w.hasInClusterRegistry then [("registry", w.registryName)] else []) ++
    [("registry address", w.registryAddress)]

def names (c : Config) (file : String) (json : Bool) : Program Unit := do
  let w ← loadValidated c file
  say (if json then (namesJson w).pretty 0 ++ "\n" else namesTable w)

def pathIn (directory name : String) : String :=
  if name.toList.head? == some '/' then name
  else if directory.toList.getLast? == some '/' then directory ++ name
  else directory ++ "/" ++ name

/-- Writes files into a directory, up to the first that cannot be written. -/
def writeFiles (directory : String) : List (String × String) → Program Unit
  | [] => .done ()
  | (name, text) :: rest => .write (pathIn directory name) text fun written =>
    (ofFile written).bind fun _ => writeFiles directory rest

def shownFile (file : String × String) : String :=
  "# ---- " ++ file.1 ++ " ----\n" ++ file.2 ++ (if Text.endsLine file.2 then "" else "\n")

/-- Shows the manager's files or puts them into a directory. -/
def render (c : Config) (file : String) (outputDir : Option String) : Program Unit := do
  let w ← loadValidated c file
  let files ← ofOutcome ((w.managerFiles c).mapError Template.Fault.toError)
  match outputDir with
  | some directory =>
    let made ← .makeDirectory directory .done
    ofFile made
    writeFiles directory files.toList
    say ("✓ Wrote " ++ toString files.size ++ " entries to " ++ directory ++ "\n")
  | none => say (String.join (files.toList.map shownFile))

def passText (number : Nat) (r : Report) : String :=
  "Pass " ++ toString number ++ ": " ++ toString r.created.length ++ " created, " ++
    toString r.present.length ++ " already present\n" ++
    String.join (r.created.map fun key => "  + " ++ key.text ++ "\n")

/-- Makes passes on a store, up to the first that fails. -/
def makePasses (stamps : Nat → Stamp) (c : Config) (w : Workflow) :
    Nat → Nat → Store → Program Store
  | 0, _, s => .done s
  | more + 1, number, s =>
    let ran := s.converge stamps c w
    match ran.result with
    | .error e => .fail (.ofError e)
    | .ok report =>
      .print (passText number report) (makePasses stamps c w more (number + 1) ran.state)

def shownObject (r : Resource) : String := "---\n" ++ (Yaml.Value.ofJson r.manifest).print

/-- Makes passes on an empty store and shows what it holds then.  A workflow without an identifier is
given one. -/
def plan (c : Config) (file : String) (passes : UInt32) : Program Unit := do
  let text ← readFile file
  let w ← ofOutcome (Workflow.ofFileText text)
  let supply : Supply ← .fresh .done
  let w := { w with identity := { w.identity with uid := some (w.identity.uid.getD supply.uid) } }
  let s ← makePasses supply.stamps c w (max passes.toNat 1) 1 .empty
  say ("\n" ++ String.join (s.list.map shownObject))

/-- The configuration that a command works with. -/
def loadConfig (env : Config.Environment) (usual : String) : Option String → Program Config
  | some path => do ofOutcome (Config.ofFile env path (← readFile path))
  | none => do return Config.ofUsualFile env (← readFile usual)

/-- Carries out a command, with the configuration file at its usual place unless another is
named. -/
def Invocation.program (env : Config.Environment) (usual : String) (i : Invocation) :
    Program Unit := do
  let c ← loadConfig env usual i.config
  match i.task with
  | .validate file => validate c file
  | .names file json => names c file json
  | .render file outputDir => render c file outputDir
  | .plan file passes => plan c file passes
  | .completions shell => say (completionScript shell)

end WorkflowOperator.Command
