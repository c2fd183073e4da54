import WorkflowOperator.Text.Digits

/-!
# Characters and quoted texts of TOML

Texts are quoted with escapes or literally, on one line or over several.
-/

namespace WorkflowOperator.Toml

def isBlank (c : Char) : Bool := c == ' ' || c == '\t'

def skipBlanks (s : List Char) : List Char := s.dropWhile isBlank

def afterBreak? : List Char → Option (List Char)
  | '\n' :: rest => some rest
  | '\r' :: '\n' :: rest => some rest
  | _ => none

/-- The characters of a line: all but the controls, of which only the tab is one. -/
def isLineChar (c : Char) : Bool := c == '\t' || (0x20 ≤ c.toNat && c.toNat != 0x7F)

def skipComment : List Char → List Char
  | '#' :: rest => rest.dropWhile isLineChar
  | s => s

/-- The text after the end of a line, which blanks and a comment may precede. -/
def afterLine? (s : List Char) : Option (List Char) :=
  match skipComment (skipBlanks s) with
  | [] => some []
  | rest => afterBreak? rest

/-- A text without blanks, comments and line breaks at its front.  A comment must end in a line
break. -/
def skipLines (s : List Char) : List Char :=
  match _h : skipBlanks s with
  | [] => []
  | c :: rest =>
    match afterBreak? (skipComment (c :: rest)) with
    | some more => if more.length < s.length then skipLines more else more
    | none => c :: rest
termination_by s.length

def readCodePoint? (width : Nat) (s : List Char) : Option (Char × List Char) :=
  (Text.codePoint? width s).map fun c => (c, s.drop width)

/-- The character that an escape stands for, after its backslash. -/
def readEscape? : List Char → Option (Char × List Char)
  | 'b' :: rest => some ('\x08', rest)
  | 't' :: rest => some ('\t', rest)
  | 'n' :: rest => some ('\n', rest)
  | 'f' :: rest => some ('\x0c', rest)
  | 'r' :: rest => some ('\r', rest)
  | '"' :: rest => some ('"', rest)
  | '\\' :: rest => some ('\\', rest)
  | 'u' :: rest => readCodePoint? 4 rest
  | 'U' :: rest => readCodePoint? 8 rest
  | _ => none

/-- The inside of a text in double quotes on one line, and what follows the closing quote. -/
def readBasic? (s : List Char) : Option (List Char × List Char) :=
  match s with
  | [] => none
  | '"' :: rest => some ([], rest)
  | '\\' :: rest =>
    match readEscape? rest with
    | none => none
    | some (c, more) =>
      if more.length ≤ rest.length then (readBasic? more).map fun r => (c :: r.1, r.2) else none
  | c :: rest => if isLineChar c then (readBasic? rest).map fun r => (c :: r.1, r.2) else none
termination_by s.length

/-- The inside of a text in single quotes on one line, and what follows the closing quote. -/
def readLiteral? : List Char → Option (List Char × List Char)
  | [] => none
  | '\'' :: rest => some ([], rest)
  | c :: rest => if isLineChar c then (readLiteral? rest).map fun r => (c :: r.1, r.2) else none

def skipEmptyLines : List Char → List Char
  | '\r' :: '\n' :: rest => skipEmptyLines rest
  | c :: rest => if isBlank c || c == '\n' then skipEmptyLines rest else c :: rest
  | [] => []

/-- The text after an escaped line break and all blanks and line breaks that follow it. -/
def afterEscapedBreak? (s : List Char) : Option (List Char) :=
  (afterBreak? (skipBlanks s)).map skipEmptyLines

/-- The inside of a text of several lines in the given quotes, and what follows the three closing
ones.  Up to two quotes may stand anywhere inside, also right before the closing ones.  Escapes are
read only if told so. -/
def readLong? (quote : Char) (escapes : Bool) (s : List Char) : Option (List Char × List Char) :=
  match s with
  | [] => none
  | c :: rest =>
    if c = quote then
      let run := (s.takeWhile (· == quote)).length
      if run < 3 then (readLong? quote escapes rest).map fun r => (c :: r.1, r.2)
      else some (List.replicate (min (run - 3) 2) quote, s.drop (min run 5))
    else if c = '\\' && escapes then
      match afterEscapedBreak? rest with
      | some more => if more.length ≤ rest.length then readLong? quote escapes more else none
      | none =>
        match readEscape? rest with
        | none => none
        | some (d, more) =>
          if more.length ≤ rest.length then
            (readLong? quote escapes more).map fun r => (d :: r.1, r.2)
          else none
    else if isLineChar c then (readLong? quote escapes rest).map fun r => (c :: r.1, r.2)
    else
      match afterBreak? s with
      | some more =>
        if more.length ≤ rest.length then
          (readLong? quote escapes more).map fun r => ('\n' :: r.1, r.2)
        else none
      | none => none
termination_by s.length

def skipBreak (s : List Char) : List Char := (afterBreak? s).getD s

def readText? : List Char → Option (List Char × List Char)
  | '"' :: '"' :: '"' :: rest => readLong? '"' true (skipBreak rest)
  | '"' :: rest => readBasic? rest
  | '\'' :: '\'' :: '\'' :: rest => readLong? '\'' false (skipBreak rest)
  | '\'' :: rest => readLiteral? rest
  | _ => none

end WorkflowOperator.Toml
