import WorkflowOperator.Yaml.Scalar.Gap

/-!
# Plain scalars

A plain scalar goes on until a colon before white space, a comment, an indicator of the collection
around it, the mark of a document, or a line that is indented too little.
-/

namespace WorkflowOperator.Yaml

structure PlainScalar where
  value : List Char
  /-- Whether a line break followed the last word. -/
  broken : Bool
  /-- The text after the scalar and the white space that followed it. -/
  rest : List Char

/-- The characters that end or separate the items of a flow collection. -/
def isFlowIndicator (c : Char) : Bool :=
  c == ',' || c == '[' || c == ']' || c == Char.ofNat 0x7B || c == Char.ofNat 0x7D

def startsFlowOrQuestion : List Char → Bool
  | [] => false
  | c :: _ => isFlowIndicator c || c == '?'

/-- Whether the white space before the given text ends a plain scalar. -/
def Gap.endsPlain (g : Gap) (flow : Bool) (indent : Int) (s : List Char) : Bool :=
  g.isSome && ((!flow && g.broken && (g.column : Int) < indent) ||
    (g.atLineStart && startsDocumentMark s) || s.head? == some '#')

/-- Reads on in a plain scalar, inside a flow collection or not; lines after the first must reach
the given indentation.  The words read so far come latest character first. -/
def readPlain? (flow : Bool) (indent : Int) :
    List Char → Gap → List Char → Option PlainScalar
  | [], g, acc => some ⟨acc.reverse, g.broken, []⟩
  | '\r' :: '\n' :: rest, g, acc => readPlain? flow indent rest (g.break_ '\n') acc
  | c :: rest, g, acc =>
    if isBlank c then
      if g.broken && (g.column : Int) < indent && c == '\t' then none
      else readPlain? flow indent rest (g.blank c) acc
    else if isBreak c then readPlain? flow indent rest (g.break_ (keptBreak c)) acc
    else if g.endsPlain flow indent (c :: rest) then some ⟨acc.reverse, g.broken, c :: rest⟩
    else if flow && c == ':' && startsFlowOrQuestion rest then none
    else if (c == ':' && startsBlank rest) || (flow && isFlowIndicator c) then
      some ⟨acc.reverse, g.broken, c :: rest⟩
    else readPlain? flow indent rest .none (c :: (g.folded ++ acc))

end WorkflowOperator.Yaml
