import WorkflowOperator.Text.Quoted

/-!
# Why a document is refused

A document may stop being YAML, lack something, or hold something else than is wanted.  Faults of the
last two kinds name the place; the last one quotes the text that stands there.
-/

namespace WorkflowOperator.Yaml

/-- The place of a node, in the words of messages; empty for the root. -/
abbrev Place := String

def Place.key (p : Place) (key : String) : Place := if p.isEmpty then key else p ++ "." ++ key

def Place.index (p : Place) (i : Nat) : Place :=
  (if p.isEmpty then "." else p) ++ "[" ++ toString i ++ "]"

/-- A reason why a document is refused. -/
inductive Fault
  /-- The text stops being YAML. -/
  | unreadable
  /-- A required entry is not there. -/
  | missing (place : Place) (field : String)
  /-- Something else is wanted, and perhaps a text stands there instead. -/
  | unexpected (place : Place) (found : Option String)
deriving DecidableEq, Repr

/-- What is wrong with a document that goes beyond a bound of its reader; no place is named. -/
def Fault.beyondBound : Fault := .unexpected "" none

/-- What a message says before the name of a missing entry. -/
def missingMarker : String := "missing field \x60"

def Fault.message : Fault → String
  | .unreadable => "not a YAML document"
  | .missing place field => at_ place (missingMarker ++ field ++ "\x60")
  | .unexpected place none => at_ place "unexpected value"
  | .unexpected place (some text) => at_ place ("unexpected text " ++ Text.quoteText text)
where
  at_ (place : Place) (words : String) : String :=
    if place.isEmpty then words else place ++ ": " ++ words

end WorkflowOperator.Yaml
