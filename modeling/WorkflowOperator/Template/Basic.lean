import WorkflowOperator.Template.Bindings
import WorkflowOperator.Template.Placeholder

/-!
# Templates

A template is a list of segments: texts whose placeholders are filled in, and literals that are
copied.  Filling in happens in one pass, so a value is never searched for placeholders again.
-/

namespace WorkflowOperator

open Text Template

/-- A part of a template. -/
inductive Template.Segment
  /-- Text whose placeholders are filled in. -/
  | text (s : String)
  /-- Text that is copied as it is. -/
  | literal (s : String)
deriving DecidableEq, Repr

/-- A text with placeholders, in parts. -/
structure Template where
  segments : List Template.Segment
deriving DecidableEq, Repr

namespace Template

def ofText (s : String) : Template := ⟨[.text s]⟩

def Segment.text? : Segment → Option String
  | .text s => some s
  | .literal _ => none

def texts (t : Template) : List String := t.segments.filterMap Segment.text?

def placeholders (t : Template) : List String :=
  (SortedMap.ofList ((t.texts.flatMap fun s => placeholderNames s.toList).map (·, ()))).keys

/-- The number of characters that a message shows of a malformed placeholder. -/
def contextLength : Nat := 24

/-- The malformed placeholder of a text, as a message shows it. -/
def malformed? (s : String) : Option String :=
  (opening? (outside s.toList)).map fun rest => String.ofList (trimEnd (rest.take contextLength))

/-- Refuses opening braces that start no placeholder. -/
def check (t : Template) : Except Fault Unit :=
  match t.texts.findSome? malformed? with
  | some context => .error (.malformed context)
  | none => .ok ()

def Piece.fill (b : Bindings) : Piece → List Char
  | .placeholder name => ((b.get? name).getD "").toList
  | .char c => [c]

def fill (b : Bindings) (s : String) : String :=
  String.ofList ((pieces s.toList).flatMap (Piece.fill b))

def Segment.render (b : Bindings) : Segment → String
  | .text s => fill b s
  | .literal s => s

def unresolved (t : Template) (b : Bindings) : List String :=
  t.placeholders.filter fun name => !b.contains name

/-- The text of a template, once it is well formed and every placeholder has a value. -/
def render (t : Template) (b : Bindings) : Except Fault String := do
  t.check
  match t.unresolved b with
  | [] => return String.join (t.segments.map (Segment.render b))
  | names => throw (.unresolved names)

end Template

end WorkflowOperator
