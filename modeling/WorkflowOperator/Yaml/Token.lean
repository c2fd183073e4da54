import WorkflowOperator.Yaml.Scalar.Block
import WorkflowOperator.Yaml.Scalar.Plain
import WorkflowOperator.Yaml.Scalar.Quoted

/-!
# Tokens

The tokens that the structure of a YAML document is made of.  Among them are marks for where block
collections and keys begin, which have no characters of their own.
-/

namespace WorkflowOperator.Yaml

inductive Style
  | plain
  | singleQuoted
  | doubleQuoted
  | literal
  | folded
deriving DecidableEq, Repr

inductive Token
  | versionDirective (major minor : Nat)
  | tagDirective (handle start : List Char)
  | documentStart
  | documentEnd
  | blockSequenceStart
  | blockMappingStart
  | blockEnd
  | flowSequenceStart
  | flowSequenceEnd
  | flowMappingStart
  | flowMappingEnd
  | blockEntry
  | flowEntry
  | key
  | value
  | alias (name : List Char)
  | anchor (name : List Char)
  | tag (handle suffix : List Char)
  | scalar (style : Style) (text : List Char)
  | streamEnd
deriving DecidableEq, Repr

namespace Token

/-- The name of an anchor or alias at the start of a text; white space or one of a few signs must
follow it. -/
def readName? (s : List Char) : Option (List Char × List Char) :=
  let name := s.takeWhile isNameChar
  let rest := s.dropWhile isNameChar
  let ended := match rest with
    | [] => true
    | c :: _ => startsBlank rest || c ∈ ['?', ':', ',', ']', Char.ofNat 0x7D, '%', '@', '\x60']
  if name.isEmpty || !ended then none else some (name, rest)

/-- The characters of a tag; a few more are allowed where the tag is written out in full. -/
def isTagChar (full : Bool) (c : Char) : Bool :=
  isNameChar c ||
    c ∈ [';', '/', '?', ':', '@', '&', '=', '+', '$', '.', '%', '!', '~', '*', '\'', '(', ')'] ||
    (full && c ∈ [',', '[', ']'])

/-- The bytes that percent escapes at the start of a text stand for, up to a given number. -/
def readOctets? : Nat → List Char → Option (List Nat × List Char)
  | 0, s => some ([], s)
  | n + 1, '%' :: a :: b :: rest => do
    let high ← Text.hexValue? a
    let low ← Text.hexValue? b
    let (more, rest) ← readOctets? n rest
    return ((16 * high + low) :: more, rest)
  | _ + 1, _ => none

/-- The length of the byte sequence that a leading byte announces. -/
def octetCount? (b : Nat) : Option Nat :=
  if b < 0x80 then some 1
  else if 0xC0 ≤ b && b < 0xE0 then some 2
  else if 0xE0 ≤ b && b < 0xF0 then some 3
  else if 0xF0 ≤ b && b < 0xF8 then some 4
  else none

/-- The character that percent escapes at the start of a text stand for, and the text after
them. -/
def readEscaped? (s : List Char) : Option (Char × List Char) := do
  let (first, _) ← readOctets? 1 s
  let n ← octetCount? (first.headD 0)
  let (octets, rest) ← readOctets? n s
  if (octets.drop 1).all fun b => 0x80 ≤ b && b < 0xC0 then
    let lead := first.headD 0
    let start := if n = 1 then lead else lead % (1 <<< (7 - n))
    return (Char.ofNat ((octets.drop 1).foldl (fun v b => 64 * v + b % 64) start), rest)
  else none

/-- The rest of a tag; the number first given counts the characters of an escape that are still to
be passed over, and the flag says whether anything has been read before. -/
def readTagRest? (full : Bool) : Nat → List Char → List Char → Option (List Char × List Char)
  | _, [], acc => some (acc.reverse, [])
  | n + 1, _ :: rest, acc => readTagRest? full n rest acc
  | 0, c :: rest, acc =>
    if !isTagChar full c then some (acc.reverse, c :: rest)
    else if c = '%' then
      match readEscaped? (c :: rest) with
      | none => none
      | some (x, after) =>
        readTagRest? full (rest.length - after.length) rest (x :: acc)
    else readTagRest? full 0 rest (c :: acc)

/-- The handle at the start of a tag: an exclamation mark, name characters and perhaps another
mark. -/
def readHandle? : List Char → Option (List Char × List Char)
  | '!' :: s =>
    let name := s.takeWhile isNameChar
    match s.dropWhile isNameChar with
    | '!' :: rest => some ('!' :: name ++ ['!'], rest)
    | rest => some ('!' :: name, rest)
  | _ => none

def isClosedHandle (handle : List Char) : Bool :=
  handle.length > 1 && handle.getLast? == some '!'

/-- The tag at the start of a text, which starts with an exclamation mark. -/
def readTag? (flow : Bool) (s : List Char) : Option (Token × List Char) := do
  let (token, rest) ← match s with
    | '!' :: '<' :: inner =>
      match readTagRest? true 0 inner [] with
      | some (suffix@(_ :: _), '>' :: rest) => some (Token.tag [] suffix, rest)
      | _ => none
    | _ =>
      match readHandle? s with
      | none => none
      | some (handle, r) =>
        if isClosedHandle handle then
          match readTagRest? false 0 r [] with
          | some (suffix@(_ :: _), rest) => some (Token.tag handle suffix, rest)
          | _ => none
        else
          match readTagRest? false 0 r [] with
          | some (more, rest) =>
            let suffix := handle.drop 1 ++ more
            some (if suffix.isEmpty then Token.tag [] ['!'] else Token.tag ['!'] suffix, rest)
          | none => none
  if startsBlank rest || (flow && rest.head? == some ',') then return (token, rest) else none

def readNumber? (s : List Char) : Option (Nat × List Char) :=
  let ds := s.takeWhile Char.isDigit
  if ds.isEmpty || 9 < ds.length then none
  else some (Text.valueOfDecimals ds, s.dropWhile Char.isDigit)

/-- The text after blanks, a comment and the break at the end of a directive. -/
def endOfDirective? (s : List Char) : Option (List Char) :=
  (endOfHeader? s).map dropBreak

/-- The directive at the start of a text, after its percent sign. -/
def readDirective? (s : List Char) : Option (Token × List Char) := do
  let name := s.takeWhile isNameChar
  let rest := s.dropWhile isNameChar
  if name.isEmpty || !startsBlank rest then none
  else if name = "YAML".toList then
    let (major, r) ← readNumber? (rest.dropWhile isBlank)
    match r with
    | '.' :: r =>
      let (minor, r) ← readNumber? r
      return (.versionDirective major minor, ← endOfDirective? r)
    | _ => none
  else if name = "TAG".toList then
    let (handle, r) ← readHandle? (rest.dropWhile isBlank)
    if !(isClosedHandle handle || handle = ['!']) then none
    else
      match r with
      | c :: _ =>
        if !isBlank c then none
        else
          let (start, r) ← readTagRest? true 0 (r.dropWhile isBlank) []
          if start.isEmpty || !startsBlank r then none
          else return (.tagDirective handle start, ← endOfDirective? r)
      | [] => none
  else none

end Token

end WorkflowOperator.Yaml
