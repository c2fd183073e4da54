import WorkflowOperator.Yaml.Value

/-!
# Writing documents

The text of a value as a YAML document: collections in block style, texts plain where that is
unambiguous and quoted otherwise, and texts of several lines as literal blocks.  No line is folded.
-/

namespace WorkflowOperator.Yaml

/-- How a text is written. -/
inductive WrittenStyle
  | plain
  | singleQuoted
  | doubleQuoted
  | literal
deriving DecidableEq, Repr

namespace Written

/-- The characters that a reader sees as themselves. -/
def isPrintable (c : Char) : Bool :=
  let n := c.toNat
  n == 10 || (0x20 ≤ n && n ≤ 0x7E) || (0xA0 ≤ n && n ≤ 0xFFFD && n != 0xFEFF) || 0x10000 ≤ n

/-- Whether two characters of the given kinds adjoin. -/
def adjoin (p q : Char → Bool) : List Char → Bool
  | a :: b :: rest => (p a && q b) || adjoin p q (b :: rest)
  | _ => false

def isSpace (c : Char) : Bool := c == ' '

/-- The characters that have a meaning at the start of any node. -/
def indicators : List Char :=
  ['#', ',', '[', ']', '\x7b', '\x7d', '&', '*', '!', '|', '>', '\'', '"', '%', '@', '\x60']

/-- Whether a text starts like something other than a plain scalar. -/
def startsIndicated : List Char → Bool
  | [] => false
  | c :: rest =>
    indicators.contains c || ((c == '?' || c == ':' || c == '-') && startsBlank rest)

/-- Whether a plain scalar would end within a text, at a key's colon or at a comment. -/
def endsWithin : List Char → Bool
  | a :: b :: rest =>
    (b == ':' && startsBlank rest) || (b == '#' && startsBlank [a]) || endsWithin (b :: rest)
  | _ => false

/-- Whether a text starts with the mark of a document's start or end, whatever follows. -/
def startsMarked (s : List Char) : Bool :=
  s.take 3 == ['-', '-', '-'] || s.take 3 == ['.', '.', '.']

/-- Whether a text can be told from its line breaks and spaces only when quoted with escapes. -/
def needsEscapes (s : List Char) : Bool := !s.all isPrintable || adjoin isSpace isBreak s

def allowsPlain (s : List Char) : Bool :=
  let atEnd (c : Option Char) := c.any fun c => isSpace c || isBreak c
  !(needsEscapes s || startsMarked s || startsIndicated s || endsWithin s || s.any isBreak ||
    atEnd s.head? || atEnd s.getLast?)

def allowsSingle (s : List Char) : Bool := !(needsEscapes s || adjoin isBreak isSpace s)

def allowsLiteral (s : List Char) : Bool :=
  !(s.isEmpty || needsEscapes s || s.getLast?.any isSpace)

/-- Whether a plain scalar of a text reads back as the text. -/
def readsAsText (s : String) : Bool :=
  Core.plainMeaning s == .text && !Core.hasLeadingZero s.toList

/-- How a text is written: a text of several lines as a literal block if it can be. -/
def styleOf (s : String) : WrittenStyle :=
  let cs := s.toList
  if cs.contains '\n' then if allowsLiteral cs then .literal else .doubleQuoted
  else if readsAsText s && allowsPlain cs then .plain
  else if allowsSingle cs then .singleQuoted
  else .doubleQuoted

def spaces (n : Nat) : List Char := List.replicate n ' '

/-- The uppercase hexadecimal digits of a number, at least so many. -/
def hexDigits (width n : Nat) : List Char :=
  let ds := (Nat.toDigits 16 n).map Char.toUpper
  List.replicate (width - ds.length) '0' ++ ds

def escape (c : Char) : List Char :=
  let n := c.toNat
  let escaped : Option (List Char) :=
    if c == '"' then some ['"']
    else if c == '\\' then some ['\\']
    else if n == 0x00 then some ['0']
    else if n == 0x07 then some ['a']
    else if n == 0x08 then some ['b']
    else if n == 0x09 then some ['t']
    else if n == 0x0A then some ['n']
    else if n == 0x0B then some ['v']
    else if n == 0x0C then some ['f']
    else if n == 0x0D then some ['r']
    else if n == 0x1B then some ['e']
    else if n == 0x85 then some ['N']
    else if n == 0x2028 then some ['L']
    else if n == 0x2029 then some ['P']
    else if isPrintable c then none
    else if n ≤ 0xFF then some ('x' :: hexDigits 2 n)
    else if n ≤ 0xFFFF then some ('u' :: hexDigits 4 n)
    else some ('U' :: hexDigits 8 n)
  match escaped with
  | some cs => '\\' :: cs
  | none => [c]

def doubleQuoted (s : List Char) : List Char := '"' :: s.flatMap escape ++ ['"']

/-- The inside of single quotes.  A quote is written twice, and after line breaks the text goes on at
a column. -/
def singleInside (column : Nat) : Bool → List Char → List Char
  | afterBreak, [] => if afterBreak then spaces column else []
  | afterBreak, c :: rest =>
    if isBreak c then c :: singleInside column true rest
    else if isSpace c then c :: singleInside column afterBreak rest
    else
      (if afterBreak then spaces column else []) ++ (if c == '\'' then ['\'', '\''] else [c]) ++
        singleInside column false rest

def singleQuoted (column : Nat) (s : List Char) : List Char :=
  '\'' :: singleInside column false s ++ ['\'']

/-- The lines of a literal block at a column. -/
def literalInside (column : Nat) : Bool → List Char → List Char
  | _, [] => []
  | lineStart, c :: rest =>
    if isBreak c then c :: literalInside column true rest
    else (if lineStart then spaces column else []) ++ c :: literalInside column false rest

/-- Whether the line breaks at the end of a text would not all be kept without saying so. -/
def needsKeeping (s : List Char) : Bool :=
  match s.reverse with
  | a :: [] => isBreak a
  | a :: b :: _ => isBreak a && isBreak b
  | [] => false

/-- The header of a literal block: the depth of indentation where the text hides it, and what becomes
of line breaks at the end. -/
def literalHeader (s : List Char) : List Char :=
  let indentation := if s.head?.any fun c => isSpace c || isBreak c then ['2'] else []
  let chomping :=
    if !s.getLast?.any isBreak then ['-'] else if needsKeeping s then ['+'] else []
  '|' :: indentation ++ chomping

/-- A text as a scalar whose further lines start at a column. -/
def text (column : Nat) (s : String) : String :=
  let cs := s.toList
  match styleOf s with
  | .plain => s
  | .singleQuoted => String.ofList (singleQuoted column cs)
  | .doubleQuoted => String.ofList (doubleQuoted cs)
  | .literal => String.ofList (literalHeader cs ++ '\n' :: literalInside column true cs)

/-- Where a node is written. -/
structure Slot where
  /-- Whether a collection can start on the line as it is. -/
  fresh : Bool
  mappingColumn : Nat
  sequenceColumn : Nat
  textColumn : Nat

def Slot.root : Slot := ⟨true, 0, 0, 2⟩

/-- The slot after the mark of an item or of a long key in a collection at a column. -/
def Slot.item (column : Nat) : Slot := ⟨true, column + 2, column + 2, column + 2⟩

/-- The slot after a key in a mapping at a column. -/
def Slot.value (column : Nat) : Slot := ⟨false, column + 2, column, column + 2⟩

def Slot.scalar (slot : Slot) (s : String) : String := if slot.fresh then s else " " ++ s

/-- A line break, unless a text ends in one. -/
def lineEnd (s : String) : String := if s.toList.getLast?.any isBreak then "" else "\n"

def stack (column : Nat) : List String → String
  | [] => ""
  | [part] => part
  | part :: rest => part ++ lineEnd part ++ String.ofList (spaces column) ++ stack column rest

def Slot.collection (slot : Slot) (column : Nat) (parts : List String) : String :=
  if slot.fresh then stack column parts
  else "\n" ++ String.ofList (spaces column) ++ stack column parts

/-- The most bytes that a key on the line of its value has. -/
def maxKeySize : Nat := 128

def isShortKey (s : String) : Bool := s.utf8ByteSize ≤ maxKeySize && !s.toList.any isBreak

/-- Whether a value can be a key on the line of its value. -/
def isSimpleKey : Value → Bool
  | .string s => isShortKey s
  | .sequence items => items.isEmpty
  | .mapping entries => entries.isEmpty
  | .tagged .. => false
  | _ => true

mutual

def node (slot : Slot) : Value → String
  | .null => slot.scalar "null"
  | .bool b => slot.scalar (if b then "true" else "false")
  | .int n => slot.scalar (toString n)
  | .float x => slot.scalar x.inDocument
  | .string s => slot.scalar (text slot.textColumn s)
  | .sequence [] => slot.scalar "[]"
  | .sequence (v :: rest) => slot.collection slot.sequenceColumn (items slot.sequenceColumn (v :: rest))
  | .mapping [] => slot.scalar "\x7b\x7d"
  | .mapping (e :: rest) =>
    slot.collection slot.mappingColumn (entries slot.mappingColumn (e :: rest))
  | .tagged tag v => slot.scalar ("!" ++ tag) ++ node { slot with fresh := false } v

def items (column : Nat) : List Value → List String
  | [] => []
  | v :: rest => ("- " ++ node (.item column) v) :: items column rest

def entries (column : Nat) : List (Value × Value) → List String
  | [] => []
  | (k, v) :: rest =>
    (if isSimpleKey k then node (.item column) k ++ ":" ++ node (.value column) v
      else
        let key := "? " ++ node (.item column) k
        key ++ lineEnd key ++ String.ofList (spaces column) ++ ": " ++ node (.item column) v) ::
      entries column rest

end

/-- The text that the last scalar of a value holds, if it is a text. -/
def lastText? : Value → Option String
  | .string s => some s
  | .sequence vs => lastOfItems? vs
  | .mapping es => lastOfEntries? es
  | .tagged _ v => lastText? v
  | _ => none
where
  lastOfItems? : List Value → Option String
    | [] => none
    | [v] => lastText? v
    | _ :: rest => lastOfItems? rest
  lastOfEntries? : List (Value × Value) → Option String
    | [] => none
    | [(_, v)] => lastText? v
    | _ :: rest => lastOfEntries? rest

/-- The mark of a document's end, which is needed after a text whose last line breaks are kept. -/
def documentEnd (v : Value) : String :=
  match lastText? v with
  | some s => if styleOf s = .literal && needsKeeping s.toList then "...\n" else ""
  | none => ""

end Written

namespace Value

def print (v : Value) : String :=
  let body := Written.node .root v
  body ++ Written.lineEnd body ++ Written.documentEnd v

end Value

end WorkflowOperator.Yaml
