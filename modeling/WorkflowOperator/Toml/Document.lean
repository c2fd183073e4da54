import WorkflowOperator.Toml.Number
import WorkflowOperator.Toml.Table
import WorkflowOperator.Toml.Text

/-!
# TOML documents

A document is read line by line: comments, headers of tables, and keys with values.
-/

namespace WorkflowOperator.Toml

def isKeyChar (c : Char) : Bool := c.isAlphanum || c == '_' || c == '-'

def readKeyPart? (s : List Char) : Option (String × List Char) :=
  match s with
  | '"' :: rest => (readBasic? rest).map fun r => (String.ofList r.1, r.2)
  | '\'' :: rest => (readLiteral? rest).map fun r => (String.ofList r.1, r.2)
  | s =>
    let key := s.takeWhile isKeyChar
    if key.isEmpty then none else some (String.ofList key, s.drop key.length)

def readKeyParts? (s : List Char) : Option (List String × List Char) :=
  match readKeyPart? (skipBlanks s) with
  | none => none
  | some (part, rest) =>
    match skipBlanks rest with
    | '.' :: more =>
      if more.length < s.length then (readKeyParts? more).map fun r => (part :: r.1, r.2) else none
    | rest => some ([part], rest)
termination_by s.length

/-- How many collections may stand inside each other, and how many parts a key may have. -/
def maxDepth : Nat := 79

/-- A key: the parts before its last one, and the last. -/
def readKey? (s : List Char) : Option ((List String × String) × List Char) := do
  let (parts, rest) ← readKeyParts? s
  if parts.length ≤ maxDepth then some ((parts.dropLast, ← parts.getLast?), rest) else none

/-- The items of an array, after its opening bracket.  A comma may follow the last one. -/
def readItems? (item : List Char → Option (Value × List Char)) (s : List Char) :
    Option (List Value × List Char) :=
  match skipLines s with
  | ']' :: rest => some ([], rest)
  | start =>
    match item start with
    | none => none
    | some (v, rest) =>
      match skipLines rest with
      | ']' :: rest => some ([v], rest)
      | ',' :: more =>
        if more.length < s.length then (readItems? item more).map fun r => (v :: r.1, r.2)
        else none
      | _ => none
termination_by s.length

def readPair? (item : List Char → Option (Value × List Char)) (s : List Char) :
    Option ((List String × String × Value) × List Char) := do
  let ((path, key), rest) ← readKey? s
  let (v, rest) ← item (skipBlanks (← after? '=' rest))
  return ((path, key, v), skipBlanks rest)

/-- The pairs of a table in braces, after the first of them is known to begin. -/
def readPairs? (item : List Char → Option (Value × List Char)) (entries : Entries)
    (s : List Char) : Option (Entries × List Char) :=
  match readPair? item s with
  | none => none
  | some ((path, key, v), rest) =>
    match entries.insert path key v with
    | none => none
    | some entries =>
      match rest with
      | ',' :: more => if more.length < s.length then readPairs? item entries more else none
      | c :: rest => if c = Char.ofNat 0x7D then some (entries, rest) else none
      | [] => none
termination_by s.length

def readInlineTable? (item : List Char → Option (Value × List Char)) (s : List Char) :
    Option (Value × List Char) :=
  match skipBlanks s with
  | [] => none
  | c :: rest =>
    if c = Char.ofNat 0x7D then some (.table [], rest)
    else (readPairs? item [] s).map fun r => (.table (entriesToValues r.1), r.2)

/-- A value that is neither an array nor a table. -/
def readScalar? : List Char → Option (Value × List Char)
  | 't' :: 'r' :: 'u' :: 'e' :: rest => some (.boolean true, rest)
  | 'f' :: 'a' :: 'l' :: 's' :: 'e' :: rest => some (.boolean false, rest)
  | s =>
    match readText? s with
    | some (t, rest) => some (.text (String.ofList t), rest)
    | none => readNumber? s

/-- A value with at most so many collections inside each other. -/
def readValue? : Nat → List Char → Option (Value × List Char)
  | depth, s =>
    match s with
    | [] => none
    | c :: rest =>
      if c = '[' then
        match depth with
        | 0 => none
        | depth + 1 => (readItems? (readValue? depth) rest).map fun r => (.array r.1, r.2)
      else if c = Char.ofNat 0x7B then
        match depth with
        | 0 => none
        | depth + 1 => readInlineTable? (readValue? depth) rest
      else readScalar? (c :: rest)

inductive Line
  | blank
  | header (path : List String) (key : String)
  /-- The header of a further table of one name. -/
  | element (path : List String) (key : String)
  | pair (path : List String) (key : String) (value : Value)

def readLine? (s : List Char) : Option (Line × List Char) :=
  match skipBlanks s with
  | '[' :: '[' :: rest => do
    let ((path, key), rest) ← readKey? rest
    let rest ← afterLine? (← after? ']' (← after? ']' rest))
    return (.element path key, rest)
  | '[' :: rest => do
    let ((path, key), rest) ← readKey? rest
    let rest ← afterLine? (← after? ']' rest)
    return (.header path key, rest)
  | start =>
    match afterLine? start with
    | some rest => some (.blank, rest)
    | none => do
      let ((path, key, v), rest) ← readPair? (readValue? maxDepth) start
      return (.pair path key v, ← afterLine? rest)

def readLines? (s : List Char) : Option (List Line) :=
  match s with
  | [] => some []
  | c :: more =>
    match readLine? (c :: more) with
    | none => none
    | some (line, rest) =>
      if rest.length ≤ more.length then (readLines? rest).map (line :: ·) else none
termination_by s.length

/-- A document as far as it has been read: its entries, and the path of the table that keys are put
into. -/
structure Draft where
  entries : Entries
  path : List String

def Draft.add (d : Draft) : Line → Option Draft
  | .blank => some d
  | .header path key =>
    (d.entries.within path (Entries.openTable key)).map (⟨·, path ++ [key]⟩)
  | .element path key =>
    (d.entries.within path (Entries.openElement key)).map (⟨·, path ++ [key]⟩)
  | .pair path key v =>
    (d.entries.within d.path (Entries.insert path key v)).map (⟨·, d.path⟩)

/-- The mark of byte order, which may stand at the very start. -/
def byteOrderMark : Char := Char.ofNat 0xFEFF

def unmarked : List Char → List Char
  | c :: rest => if c = byteOrderMark then rest else c :: rest
  | [] => []

def ofText? (text : String) : Option Value := do
  let lines ← readLines? (unmarked text.toList)
  let draft ← lines.foldlM Draft.add ⟨[], []⟩
  return .table (entriesToValues draft.entries)

end WorkflowOperator.Toml
