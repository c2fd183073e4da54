import WorkflowOperator.Error
import WorkflowOperator.FileFault
import WorkflowOperator.Store.Basic

/-!
# Programs

What a command does, as data: which file it looks at, writes or asks for next follows from the answers
so far.  A program is carried out on files of the system, or on a folder held in memory.
-/

namespace WorkflowOperator.Command

/-- Why a command failed, and what was behind it if that is to be told. -/
structure Failure where
  message : String
  cause : Option String
deriving DecidableEq, Repr

def Failure.ofError (e : Error) : Failure := ⟨e.message, e.source?⟩

def Failure.ofFile (fault : FileFault) : Failure := ⟨fault.message, none⟩

def Failure.text (f : Failure) : String :=
  "Error: " ++ f.message ++ (match f.cause with
    | some cause => "\n\nCaused by:\n    " ++ cause
    | none => "")

/-- New identifiers: one for a workflow, and a stamp for every object. -/
structure Supply where
  uid : String
  stamps : Nat → Stamp

/-- A course of actions up to a result or a failure. -/
inductive Program (α : Type)
  | done (a : α)
  | fail (f : Failure)
  | isThere (path : String) (next : Bool → Program α)
  | read (path : String) (next : Except FileFault String → Program α)
  /-- Makes a directory with all those above it. -/
  | makeDirectory (path : String) (next : Except FileFault Unit → Program α)
  | write (path text : String) (next : Except FileFault Unit → Program α)
  | print (text : String) (next : Program α)
  | fresh (next : Supply → Program α)

namespace Program

/-- A program that goes on after a result. -/
def bind {α β : Type} : Program α → (α → Program β) → Program β
  | .done a, f => f a
  | .fail e, _ => .fail e
  | .isThere path next, f => .isThere path fun b => (next b).bind f
  | .read path next, f => .read path fun r => (next r).bind f
  | .makeDirectory path next, f => .makeDirectory path fun r => (next r).bind f
  | .write path text next, f => .write path text fun r => (next r).bind f
  | .print text next, f => .print text (next.bind f)
  | .fresh next, f => .fresh fun s => (next s).bind f

instance : Monad Program where
  pure := .done
  bind := bind

def say (text : String) : Program Unit := .print text (.done ())

def ofOutcome {α : Type} : Outcome α → Program α
  | .ok a => .done a
  | .error e => .fail (.ofError e)

def ofFile {α : Type} : Except FileFault α → Program α
  | .ok a => .done a
  | .error fault => .fail (.ofFile fault)

def readFile (path : String) : Program (Except FileFault String) := .read path .done

end Program

end WorkflowOperator.Command
