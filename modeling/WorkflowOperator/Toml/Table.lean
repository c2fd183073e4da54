import WorkflowOperator.Toml.Value

/-!
# Tables of TOML

A table is opened once, by a header or by keys with dots; what a deeper header implies may be opened
later.  Keys with dots reach only into tables that such keys made.
-/

namespace WorkflowOperator.Toml

/-- How a table came to be. -/
inductive Origin
  /-- By a header of its own. -/
  | header
  /-- By a header of a table inside it. -/
  | implied
  /-- By a key with dots. -/
  | dotted
deriving DecidableEq, Repr

/-- What stands under a key while tables are filled. -/
inductive Item
  | value (v : Value)
  | table (origin : Origin) (entries : List (String × Item))
  /-- The tables of one name, in order. -/
  | tables (elements : List (List (String × Item)))
deriving Inhabited

abbrev Entries := List (String × Item)

namespace Entries

def find? (e : Entries) (key : String) : Option Item :=
  (List.find? (fun p => p.1 == key) e).map Prod.snd

def replace (e : Entries) (key : String) (item : Item) : Entries :=
  e.map fun p => if p.1 == key then (key, item) else p

def add (e : Entries) (key : String) (item : Item) : Entries := e ++ [(key, item)]

/-- Changes the table at a path of headers; tables on the way that are not there are implied, and of
tables of one name the last is meant. -/
def within : List String → (Entries → Option Entries) → Entries → Option Entries
  | [], change, e => change e
  | key :: path, change, e =>
    match e.find? key with
    | none => (within path change []).map fun inner => e.add key (.table .implied inner)
    | some (.value _) => none
    | some (.table origin inner) =>
      (within path change inner).map fun inner => e.replace key (.table origin inner)
    | some (.tables elements) =>
      match elements.getLast? with
      | none => none
      | some last => (within path change last).map fun last =>
          e.replace key (.tables (elements.dropLast ++ [last]))

/-- Opens the table of a name, which may have been implied before. -/
def openTable (key : String) (e : Entries) : Option Entries :=
  match e.find? key with
  | none => some (e.add key (.table .header []))
  | some (.table .implied inner) => some (e.replace key (.table .header inner))
  | _ => none

/-- Opens a further table among those of one name. -/
def openElement (key : String) (e : Entries) : Option Entries :=
  match e.find? key with
  | none => some (e.add key (.tables [[]]))
  | some (.tables elements) => some (e.replace key (.tables (elements ++ [[]])))
  | _ => none

/-- Puts a value under a key, at a path of dots from a table on. -/
def insert : List String → String → Value → Entries → Option Entries
  | [], key, v, e =>
    match e.find? key with
    | none => some (e.add key (.value v))
    | some _ => none
  | step :: path, key, v, e =>
    match e.find? step with
    | none => (insert path key v []).map fun inner => e.add step (.table .dotted inner)
    | some (.value _) => none
    | some (.table origin inner) =>
      if origin = .header ∨ (path.isEmpty ∧ origin ≠ .dotted) then none
      else (insert path key v inner).map fun inner => e.replace step (.table origin inner)
    | some (.tables elements) =>
      if path.isEmpty then none
      else
        match elements.getLast? with
        | none => none
        | some last => (insert path key v last).map fun last =>
            e.replace step (.tables (elements.dropLast ++ [last]))

end Entries

mutual

def Item.toValue : Item → Value
  | .value v => v
  | .table _ entries => .table (entriesToValues entries)
  | .tables elements => .array (elementsToValues elements)

def entriesToValues : List (String × Item) → List (String × Value)
  | [] => []
  | (key, item) :: rest => (key, item.toValue) :: entriesToValues rest

def elementsToValues : List (List (String × Item)) → List Value
  | [] => []
  | e :: rest => .table (entriesToValues e) :: elementsToValues rest

end

end WorkflowOperator.Toml
