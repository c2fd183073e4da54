import WorkflowOperator.Error
import WorkflowOperator.Text.Quoted

/-!
# What can go wrong with a template

The causes for which a value is refused or a template is not filled in.
-/

namespace WorkflowOperator.Template

/-- A reason why a template or a value for it is refused. -/
inductive Fault
  /-- Opening braces that start no placeholder, with the text that follows. -/
  | malformed (context : String)
  /-- Placeholders without a value, in order. -/
  | unresolved (names : List String)
  /-- A value with a line break. -/
  | multiline (name : String)
  /-- A value with a character that a shell would not leave alone. -/
  | unsafeCharacter (name : String) (c : Char)
  /-- A text that cannot name an environment variable. -/
  | invalidVariable (name : String) (var : String)
  /-- A job document that does not read back. -/
  | unreadableDocument (job : String) (reason : String)
deriving DecidableEq, Repr

def Fault.message : Fault → String
  | .malformed context => "Malformed placeholder near '" ++ context ++ "'"
  | .unresolved names => "Unresolved placeholder(s): " ++ ", ".intercalate names
  | .multiline name => "Value for '" ++ name ++ "' must be a single line"
  | .unsafeCharacter name c =>
    "Value for '" ++ name ++ "' contains shell-unsafe character " ++ Text.quoteChar c
  | .invalidVariable name v => "Value for '" ++ name ++ "' names an invalid variable '" ++ v ++ "'"
  | .unreadableDocument job reason =>
    "Job document for '" ++ job ++ "' is not valid YAML: " ++ reason

def Fault.toError (f : Fault) : Error := .template f.message

end WorkflowOperator.Template
