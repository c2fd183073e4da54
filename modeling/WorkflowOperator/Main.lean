import WorkflowOperator.Command.Run
import WorkflowOperator.Log
import WorkflowOperator.Text.Uid

/-!
# The command line

Carries out programs on the files of the system.
-/

namespace WorkflowOperator.Command

def faultOf : IO.Error → FileFault
  | .noFileOrDirectory .. | .noSuchThing .. => .missing
  | .alreadyExists .. => .present
  | .inappropriateType _ 20 _ => .notDirectory
  | .inappropriateType _ 21 _ => .isDirectory
  | e => .other (toString e)

/-- The result of an action, or the fault with it. -/
def attempt {α : Type} (action : IO α) : IO (Except FileFault α) := do
  try return .ok (← action) catch e => return .error (faultOf e)

def isThere (path : String) : IO Bool := do
  return (← attempt (IO.FS.realPath path)).toBool

def readText (path : String) : IO (Except FileFault String) := do
  return (← attempt (IO.FS.readBinFile path)).bind fun bytes => FileFault.textOf (some bytes)

def startTime : IO Timestamp := do
  match ← attempt (do (← IO.FS.realPath "/proc/self").metadata) with
  | .ok found =>
    let seconds := found.modified.sec
    return ⟨seconds / 60, (seconds % 60).toNat, found.modified.nsec.toNat⟩
  | .error _ => return ⟨0, 0, 0⟩

def drawSupply : IO Supply := do
  let bytes ← IO.getRandomBytes 16
  let seed := bytes.foldl (fun n b => 256 * n + b.toNat) 0
  let time ← startTime
  return ⟨Text.uidFrom seed 0, fun n => ⟨Text.uidFrom seed (n + 1), time⟩⟩

/-- Carries out a program; tells each action on files if it is to be followed. -/
def Program.perform {α : Type} (followed : Bool) : Program α → IO (Except Failure α)
  | .done a => return .ok a
  | .fail f => return .error f
  | .isThere path next => do
    (next (← Command.isThere path)).perform followed
  | .read path next => do
    if followed then IO.eprintln ("read " ++ path)
    (next (← readText path)).perform followed
  | .makeDirectory path next => do
    if followed then IO.eprintln ("make directory " ++ path)
    (next (← attempt (IO.FS.createDirAll path))).perform followed
  | .write path text next => do
    if followed then IO.eprintln ("write " ++ path)
    (next (← attempt (IO.FS.writeFile path text))).perform followed
  | .print text next => do
    IO.print text
    next.perform followed
  | .fresh next => do
    (next (← drawSupply)).perform followed

def readEnvironment : IO Config.Environment := do
  let found ← ["STAGEWRIGHT_MANAGER_IMAGE", "STAGEWRIGHT_REGISTRY_IMAGE",
    "STAGEWRIGHT_CORES_PER_TASK", "STAGEWRIGHT_WORKDIR", "STAGEWRIGHT_ORAS_VERSION",
    "STAGEWRIGHT_LOG", "STAGEWRIGHT_LOG_FORMAT", "RUST_LOG", "XDG_CONFIG_HOME", "HOME"].mapM
      fun name => do return (name, ← IO.getEnv name)
  return fun name => (found.find? fun e => e.1 == name).bind Prod.snd

end WorkflowOperator.Command

open WorkflowOperator WorkflowOperator.Command in
def main (words : List String) : IO UInt32 := do
  match Request.ofWords words with
  | .error fault =>
    IO.eprintln ("error: " ++ fault.message)
    return 2
  | .ok .help =>
    IO.print helpText
    return 0
  | .ok .version =>
    IO.print versionText
    return 0
  | .ok (.run invocation) =>
    let env ← readEnvironment
    let log := LogConfig.ofEnvironment env
    let log := if invocation.verbose then log.verbose else log
    match ← (invocation.program env (Config.usualPath env)).perform (log.filter == "debug") with
    | .ok () => return 0
    | .error failure =>
      IO.eprintln failure.text
      return 1
