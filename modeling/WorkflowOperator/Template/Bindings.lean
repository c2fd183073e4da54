import WorkflowOperator.Template.Fault
import WorkflowOperator.Text.Label

/-!
# Values for placeholders

A closed set of values, each on a single line so that putting one into a text never breaks the
lines around it.  A value meant for a shell is checked before it is bound.
-/

namespace WorkflowOperator.Template

open Text

/-- The values bound to placeholder names. -/
structure Bindings where
  values : TextMap String
deriving DecidableEq

namespace Bindings

def empty : Bindings := ⟨∅⟩

def get? (b : Bindings) (name : String) : Option String := b.values.get? name

def contains (b : Bindings) (name : String) : Bool := b.values.contains name

def breaksLine (s : String) : Bool := s.toList.any fun c => c == '\n' || c == '\r'

/-- Binds a value of a single line. -/
def insert (b : Bindings) (name value : String) : Except Fault Bindings :=
  if breaksLine value then .error (.multiline name) else .ok ⟨b.values.insert name value⟩

def insertSome (b : Bindings) (name : String) : Option String → Except Fault Bindings
  | some value => b.insert name value
  | none => .ok b

def insertWhen (b : Bindings) (condition : Bool) (name value : String) : Except Fault Bindings :=
  if condition then b.insert name value else .ok b

def checkShellWord (name value : String) : Except Fault Unit :=
  match firstUnsafe? value with
  | some c => .error (.unsafeCharacter name c)
  | none => .ok ()

/-- Binds a value that stands for itself in a shell word. -/
def insertShell (b : Bindings) (name value : String) : Except Fault Bindings := do
  checkShellWord name value
  b.insert name value

/-- Binds several shell words joined by single spaces. -/
def insertShellWords (b : Bindings) (name : String) (words : List String) :
    Except Fault Bindings := do
  words.forM (checkShellWord name)
  b.insert name (" ".intercalate words)

/-- The shell's text for the value of a variable, or a fallback when it is unset or empty. -/
def variableOr (var fallback : String) : String :=
  "$\x7b" ++ var ++ ":-" ++ fallback ++ "\x7d"

/-- Binds the value of an environment variable with a fallback. -/
def insertVariable (b : Bindings) (name var fallback : String) : Except Fault Bindings := do
  unless isVariableName var do throw (.invalidVariable name var)
  checkShellWord name fallback
  b.insert name (variableOr var fallback)

end Bindings

end WorkflowOperator.Template
