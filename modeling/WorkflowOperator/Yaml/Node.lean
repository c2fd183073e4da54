import WorkflowOperator.Yaml.Token

/-!
# Nodes

The tree of a YAML document before any type is read into its scalars.  A document that stops being
YAML part way has a tree too: it ends with the node `broken` at that place, and nothing follows it.
-/

namespace WorkflowOperator.Yaml

/-- A node of a document.  Anchors are numbered. -/
inductive Node
  | scalar (anchor : Option Nat) (tag : Option String) (style : Style) (text : String)
  | sequence (anchor : Option Nat) (tag : Option String) (items : List Node)
  | mapping (anchor : Option Nat) (tag : Option String) (entries : List (Node × Node))
  | alias (anchor : Nat)
  | broken
deriving Inhabited

namespace Node

/-- The plain scalar without text, which stands where a value is left out. -/
def blank : Node := .scalar none none .plain ""

def withTag (tag : String) : Node → Node
  | .scalar a _ style text => .scalar a (some tag) style text
  | .sequence a _ items => .sequence a (some tag) items
  | .mapping a _ entries => .mapping a (some tag) entries
  | n => n

mutual

/-- Whether the text of a node was YAML to its end. -/
def isWhole : Node → Bool
  | .scalar .. | .alias _ => true
  | .broken => false
  | .sequence _ _ items => allWhole items
  | .mapping _ _ entries => entriesWhole entries

def allWhole : List Node → Bool
  | [] => true
  | n :: rest => n.isWhole && allWhole rest

def entriesWhole : List (Node × Node) → Bool
  | [] => true
  | (k, v) :: rest => k.isWhole && v.isWhole && entriesWhole rest

end

mutual

/-- The nodes with an anchor, in the order of the text. -/
def anchored : Node → List (Nat × Node)
  | .scalar a tag style text => (a.map fun i => (i, Node.scalar a tag style text)).toList
  | .sequence a tag items =>
    (a.map fun i => (i, Node.sequence a tag items)).toList ++ itemsAnchored items
  | .mapping a tag entries =>
    (a.map fun i => (i, Node.mapping a tag entries)).toList ++ entriesAnchored entries
  | .alias _ | .broken => []

def itemsAnchored : List Node → List (Nat × Node)
  | [] => []
  | n :: rest => n.anchored ++ itemsAnchored rest

def entriesAnchored : List (Node × Node) → List (Nat × Node)
  | [] => []
  | (k, v) :: rest => k.anchored ++ v.anchored ++ entriesAnchored rest

end

mutual

/-- The number of steps in which a reader passes over a node: one for a scalar or an alias, and for a
collection one at its start and one at its end, if that is there, beside those of its parts. -/
def steps : Node → Nat
  | .scalar .. | .alias _ => 1
  | .broken => 0
  | .sequence _ _ items => itemsSteps items + if allWhole items then 2 else 1
  | .mapping _ _ entries => entriesSteps entries + if entriesWhole entries then 2 else 1

def itemsSteps : List Node → Nat
  | [] => 0
  | n :: rest => n.steps + itemsSteps rest

def entriesSteps : List (Node × Node) → Nat
  | [] => 0
  | (k, v) :: rest => k.steps + v.steps + entriesSteps rest

end

end Node

/-- The nodes that aliases stand for, by the numbers of their anchors. -/
structure Anchors where
  nodes : List (Nat × Node)

/-- The node of an anchor; of two with one number the later counts. -/
def Anchors.get? (a : Anchors) (i : Nat) : Option Node :=
  (a.nodes.reverse.find? fun e => e.1 == i).map Prod.snd

/-- A node with an alias at its top replaced by what it stands for. -/
def Anchors.resolve (a : Anchors) : Node → Node
  | .alias i => (a.get? i).getD .broken
  | n => n

end WorkflowOperator.Yaml
