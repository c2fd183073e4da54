import WorkflowOperator.SortedMap
import WorkflowOperator.Yaml.Value

/-!
# Reading typed data from nodes

A decoder reads a value of a known type from a node.  A record is read entry by entry in the order
of the text, so the first fault in the text is the one that is reported; entries that the record does
not know are passed over.  The aliases that decoders follow count against one bound for the document,
as they do for values of no known type.
-/

namespace WorkflowOperator.Yaml

/-- A way to read a value from the node at a place. -/
abbrev Decoder (α : Type) := Anchors → Place → Node → Value.Bounded α

namespace Decoder

variable {α β σ : Type}

def mismatch (place : Place) : Node → Fault
  | .scalar _ tag style text =>
    match Core.meaning tag style text with
    | .text | .mistagged => .unexpected place (some text)
    | _ => .unexpected place none
  | .broken => .unreadable
  | _ => .unexpected place none

/-- Any scalar, as it is written. -/
def text : Decoder String := fun anchors place n => do
  match ← Value.follow anchors n with
  | .scalar _ _ _ s => return s
  | n => throw (mismatch place n)

/-- A scalar that may be of the type and has one of its spellings. -/
def scalar (type : String) (read : String → Option α) : Decoder α := fun anchors place n => do
  match ← Value.follow anchors n with
  | .scalar a tag style s =>
    if Core.mayBe type tag style then
      match read s with
      | some v => return v
      | none => throw (mismatch place (.scalar a tag style s))
    else throw (mismatch place (.scalar a tag style s))
  | n => throw (mismatch place n)

def flag : Decoder Bool := scalar "bool" Core.bool?

/-- A whole number without a minus sign, less than a bound. -/
def below (bound : Nat) : Decoder Nat :=
  scalar "int" fun s => (Core.unsigned? s.toList).filter (· < bound)

def word32 : Decoder UInt32 := fun anchors place n =>
  UInt32.ofNat <$> below UInt32.size anchors place n

def word16 : Decoder UInt16 := fun anchors place n =>
  UInt16.ofNat <$> below UInt16.size anchors place n

def int32 : Decoder Int32 := fun anchors place n =>
  Int32.ofInt <$> scalar "int"
    (fun s => (Core.integer? s.toList).filter fun i => -0x80000000 ≤ i && i < 0x80000000)
    anchors place n

/-- Whether a scalar stands for no value; one that is tagged as null must be null. -/
def isAbsent (place : Place) (tag : Option String) (style : Style) (s : String) :
    Except Fault Bool :=
  if style != .plain then .ok false
  else
    match tag with
    | none => .ok (s.isEmpty || Core.isNull s)
    | some t =>
      if t == Core.tagOf "null" then
        if Core.isNull s then .ok true else .error (.unexpected place (some s))
      else .ok false

def optional (d : Decoder α) : Decoder (Option α) := fun anchors place n => do
  match ← Value.follow anchors n with
  | .scalar a tag style s =>
    if ← isAbsent place tag style s then return none
    else return some (← d anchors place (.scalar a tag style s))
  | .broken => throw .unreadable
  | n => return some (← d anchors place n)

/-- Whether a scalar is plain and empty, which stands for an empty collection. -/
def isEmptyPlain (style : Style) (s : String) : Bool := style == .plain && s.isEmpty

def list (d : Decoder α) : Decoder (List α) := fun anchors place n => do
  match ← Value.follow anchors n with
  | .sequence _ _ items => items.zipIdx.mapM fun (item, i) => d anchors (place.index i) item
  | .scalar a tag style s =>
    if isEmptyPlain style s then return [] else throw (mismatch place (.scalar a tag style s))
  | n => throw (mismatch place n)

/-- The entries of a mapping, or none for a plain empty scalar. -/
def entries : Decoder (List (Node × Node)) := fun anchors place n => do
  match ← Value.follow anchors n with
  | .mapping _ _ entries => return entries
  | .scalar a tag style s =>
    if isEmptyPlain style s then return [] else throw (mismatch place (.scalar a tag style s))
  | n => throw (mismatch place n)

/-- A finite map from texts to values; of two entries with one key the later counts. -/
def textMap (d : Decoder α) : Decoder (TextMap α) := fun anchors place n => do
  let es ← entries anchors place n
  es.foldlM (fun m e => do
    let k ← text anchors place e.1
    let v ← d anchors (Value.entryPlace place e.1) e.2
    return m.insert k v) ∅

/-- A field of a record: the names it goes by, and how its value changes the record. -/
structure Field (σ : Type) where
  name : String
  otherNames : List String
  read : Anchors → Place → Node → σ → Value.Bounded σ

def Field.of (name : String) (d : Decoder α) (put : σ → α → σ) : Field σ :=
  ⟨name, [], fun anchors place n s => put s <$> d anchors place n⟩

def Field.alsoNamed (f : Field σ) (name : String) : Field σ :=
  { f with otherNames := name :: f.otherNames }

def Field.isNamed (f : Field σ) (name : String) : Bool :=
  f.name == name || f.otherNames.contains name

/-- Reads one entry of a record into it, beside the names of the fields that have been read. -/
def readEntry (fields : List (Field σ)) (anchors : Anchors) (place : Place)
    (sofar : List String × σ) (e : Node × Node) : Value.Bounded (List String × σ) := do
  let key ← text anchors place e.1
  match fields.find? (·.isNamed key) with
  | none => if e.2.isWhole then return sofar else throw .unreadable
  | some f =>
    if sofar.1.contains f.name then throw (.unexpected place none)
    let s ← f.read anchors (Value.entryPlace place e.1) e.2 sofar.2
    return (f.name :: sofar.1, s)

/-- A record that starts out with what it holds if an entry is left out; the required ones must not
be. -/
def record (fields : List (Field σ)) (required : List String) (start : σ) : Decoder σ :=
  fun anchors place n => do
    let es ← entries anchors place n
    let (seen, s) ← es.foldlM (readEntry fields anchors place) ([], start)
    match required.find? fun name => !seen.contains name with
    | some name => throw (.missing place name)
    | none => return s

def ofText (d : Decoder α) (text : String) : Except Fault α := do
  let doc := Document.ofText text
  let (v, _) ← (d doc.anchors "" doc.root).run (Value.aliasesPerStep * doc.root.steps)
  if doc.complete then return v else throw .unreadable

end Decoder

end WorkflowOperator.Yaml
