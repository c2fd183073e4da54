/-!
# Characters and positions of a YAML text

The classes of characters that the structure of a YAML text rests on, and the position that is
reached by reading on.
-/

namespace WorkflowOperator.Yaml

/-- The characters that end a line: carriage return, line feed, next line, line separator,
paragraph separator. -/
def isBreak (c : Char) : Bool :=
  c == '\r' || c == '\n' || c.toNat == 0x85 || c.toNat == 0x2028 || c.toNat == 0x2029

/-- The characters that separate words of a line: space and tab. -/
def isBlank (c : Char) : Bool := c == ' ' || c == '\t'

/-- A line break as it is kept in a scalar; the two separators stay themselves. -/
def keptBreak (c : Char) : Char :=
  if c.toNat == 0x2028 || c.toNat == 0x2029 then c else '\n'

/-- Whether a text starts with a blank or a break, or is at its end. -/
def startsBlank : List Char → Bool
  | [] => true
  | c :: _ => isBlank c || isBreak c

/-- The characters of anchors and tag handles. -/
def isNameChar (c : Char) : Bool :=
  ('a' ≤ c && c ≤ 'z') || ('A' ≤ c && c ≤ 'Z') || ('0' ≤ c && c ≤ '9') || c == '_' || c == '-'

/-- The mark of byte order, which may stand at the very start of a text. -/
def byteOrderMark : Char := Char.ofNat 0xFEFF

/-- The characters that may stand in a text at all. -/
def isReadable (c : Char) : Bool :=
  let n := c.toNat
  n == 9 || n == 10 || n == 13 || (0x20 ≤ n && n ≤ 0x7E) || n == 0x85 ||
    (0xA0 ≤ n && n ≤ 0xFFFD) || 0x10000 ≤ n

/-- Whether a text starts with three equal characters that mark the start or the end of a document
when they stand alone at the start of a line. -/
def startsMark (mark : Char) : List Char → Bool
  | a :: b :: c :: rest => a == mark && b == mark && c == mark && startsBlank rest
  | _ => false

def startsDocumentMark (s : List Char) : Bool := startsMark '-' s || startsMark '.' s

/-- A place in a text: the number of characters before it, of lines before its own, and of
characters before it on its line. -/
structure Position where
  index : Nat
  line : Nat
  column : Nat
deriving DecidableEq, Repr

def Position.start : Position := ⟨0, 0, 0⟩

/-- The position after the given characters; a carriage return and a line feed make one break. -/
def Position.after (p : Position) : List Char → Position
  | [] => p
  | '\r' :: '\n' :: rest => Position.after ⟨p.index + 2, p.line + 1, 0⟩ rest
  | c :: rest =>
    if isBreak c then Position.after ⟨p.index + 1, p.line + 1, 0⟩ rest
    else Position.after ⟨p.index + 1, p.line, p.column + 1⟩ rest

end WorkflowOperator.Yaml
