import WorkflowOperator.Yaml.Core
import WorkflowOperator.Yaml.Document
import WorkflowOperator.Yaml.Fault

/-!
# Values

The value that a document stands for when nothing is known about its type.  Reading follows aliases,
refuses two entries of a mapping with one key, and is bounded in the depth of nesting and in the
number of aliases it follows.
-/

namespace WorkflowOperator.Yaml

/-- A value that YAML can write. -/
inductive Value
  | null
  | bool (b : Bool)
  | int (n : Int)
  | float (x : Binary64)
  | string (s : String)
  | sequence (items : List Value)
  | mapping (entries : List (Value × Value))
  | tagged (tag : String) (value : Value)
deriving Inhabited

namespace Value

/-- Whether two binary numbers are one key: equal as numbers, or neither a number. -/
def sameFloat (x y : Binary64) : Bool :=
  if x.isNaN || y.isNaN then x.isNaN && y.isNaN
  else x == y || (x.isZero && y.isZero)

mutual

/-- Whether two values are the same key; the order of a mapping's entries does not count. -/
def same : Value → Value → Bool
  | .null, .null => true
  | .bool a, .bool b => a == b
  | .int a, .int b => a == b
  | .float a, .float b => sameFloat a b
  | .string a, .string b => a == b
  | .sequence a, .sequence b => sameItems a b
  | .mapping a, .mapping b => a.length == b.length && coveredBy a b
  | .tagged s a, .tagged t b => s == t && a.same b
  | _, _ => false

def sameItems : List Value → List Value → Bool
  | [], [] => true
  | a :: as, b :: bs => a.same b && sameItems as bs
  | _, _ => false

/-- Whether every entry is among the others. -/
def coveredBy : List (Value × Value) → List (Value × Value) → Bool
  | [], _ => true
  | (k, v) :: rest, others =>
    (others.any fun e => k.same e.1 && v.same e.2) && coveredBy rest others

end

/-- A reading step that may follow only so many more aliases. -/
abbrev Bounded := StateT Nat (Except Fault)

def ofScalar (place : Place) (tag : Option String) (style : Style) (text : String) :
    Except Fault Value :=
  match Core.meaning tag style text with
  | .null => .ok .null
  | .bool b => .ok (.bool b)
  | .int n => .ok (.int n)
  | .float x => .ok (.float x)
  | .text => .ok (.string text)
  | .wide => .error (.unexpected place none)
  | .mistagged => .error (.unexpected place (some text))

/-- A node with an alias at its top followed, which counts against the bound. -/
def follow (anchors : Anchors) (n : Node) : Bounded Node := do
  match n with
  | .alias _ =>
    match ← get with
    | 0 => throw .beyondBound
    | more + 1 =>
      set more
      return anchors.resolve n
  | n => return n

def localName (tag : String) : String :=
  match tag.toList with
  | '!' :: rest@(_ :: _) => String.ofList rest
  | _ => tag

/-- A value under the local tag of its node, if it has one. -/
def underTag (tag : Option String) (v : Value) : Value :=
  match tag with
  | some t => if Core.isLocalTag t then .tagged (localName t) v else v
  | none => v

/-- The tag of a node, unless it is a local one. -/
def sharedTag (tag : Option String) : Option String := tag.filter fun t => !Core.isLocalTag t

def entryPlace (place : Place) : Node → Place
  | .scalar _ _ _ text => place.key text
  | _ => place.key "?"

/-- The value of a node at a place, with at most so many collections inside each other. -/
def ofNode (anchors : Anchors) : Nat → Place → Node → Bounded Value
  | depth, place, n => do
    match ← follow anchors n with
    | .scalar _ tag style text =>
      underTag tag <$> ofScalar place (sharedTag tag) style text
    | .sequence _ tag items =>
      match depth with
      | 0 => throw .beyondBound
      | depth + 1 =>
        let values ← items.mapM fun item => ofNode anchors depth place item
        return underTag tag (.sequence values)
    | .mapping _ tag entries =>
      match depth with
      | 0 => throw .beyondBound
      | depth + 1 =>
        let values ← entries.foldlM (fun (seen : List (Value × Value)) e => do
          let k ← ofNode anchors depth place e.1
          if seen.any fun s => s.1.same k then throw (.unexpected place none)
          let v ← ofNode anchors depth (entryPlace place e.1) e.2
          return seen ++ [(k, v)]) []
        return underTag tag (.mapping values)
    | .alias _ | .broken => throw .unreadable

/-- How many collections may stand inside each other. -/
def maxDepth : Nat := 128

/-- How many aliases may be followed for each step of a document. -/
def aliasesPerStep : Nat := 100

def ofText (text : String) : Except Fault Value := do
  let d := Document.ofText text
  let (v, _) ← (ofNode d.anchors maxDepth "" d.root).run (aliasesPerStep * d.root.steps)
  if d.complete then return v else throw .unreadable

end Value

end WorkflowOperator.Yaml
