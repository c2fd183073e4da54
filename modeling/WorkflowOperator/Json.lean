import WorkflowOperator.SortedMap

/-!
# JSON values

The tree of a JSON text.  The members of an object are kept in the order of their names, which is
the order in which they are written.
-/

namespace WorkflowOperator

/-- A JSON value.  A number is a whole number divided by a power of ten. -/
inductive Json
  | null
  | bool (b : Bool)
  | number (digits : Int) (places : Nat)
  | string (s : String)
  | array (items : List Json)
  | object (members : List (String × Json))
deriving Inhabited

namespace Json

def ofInt (n : Int) : Json := .number n 0

def ofNat (n : Nat) : Json := .number n 0

def ofStrings (l : List String) : Json := .array (l.map .string)

/-- The object with the given members, in the order of their names; of two with one name the later
counts. -/
def ofMembers (l : List (String × Json)) : Json := .object (SortedMap.ofList l).toList

def ofTextMap (m : TextMap String) : Json := .object (m.toList.map fun e => (e.1, .string e.2))

/-- The member of an object with the given name; of two with one name the later counts. -/
def member? (name : String) : Json → Option Json
  | .object members => (members.reverse.find? fun m => m.1 == name).map Prod.snd
  | _ => none

/-- A member that is left out when there is no value for it. -/
def optional {α : Type} (name : String) (write : α → Json) : Option α → List (String × Json)
  | none => []
  | some a => [(name, write a)]

/-- A member that is left out when its list is empty. -/
def unlessEmpty {α : Type} (name : String) (write : α → Json) :
    List α → List (String × Json)
  | [] => []
  | l => [(name, .array (l.map write))]

end Json

end WorkflowOperator
