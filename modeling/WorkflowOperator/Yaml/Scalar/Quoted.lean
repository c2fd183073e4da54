import WorkflowOperator.Text.Digits
import WorkflowOperator.Yaml.Scalar.Gap

/-!
# Quoted scalars

Between single quotes a quote is written twice; between double quotes a backslash starts an escape.
-/

namespace WorkflowOperator.Yaml

def simpleEscape? (c : Char) : Option Char :=
  match c with
  | '0' => some (Char.ofNat 0)
  | 'a' => some (Char.ofNat 7)
  | 'b' => some (Char.ofNat 8)
  | 't' | '\t' => some '\t'
  | 'n' => some '\n'
  | 'v' => some (Char.ofNat 11)
  | 'f' => some (Char.ofNat 12)
  | 'r' => some '\r'
  | 'e' => some (Char.ofNat 0x1B)
  | ' ' => some ' '
  | '"' => some '"'
  | '/' => some '/'
  | '\\' => some '\\'
  | 'N' => some (Char.ofNat 0x85)
  | '_' => some (Char.ofNat 0xA0)
  | 'L' => some (Char.ofNat 0x2028)
  | 'P' => some (Char.ofNat 0x2029)
  | _ => none

/-- The number of hexadecimal digits after the letter of an escape by code point. -/
def codeLength? (c : Char) : Option Nat :=
  match c with
  | 'x' => some 2
  | 'u' => some 4
  | 'U' => some 8
  | _ => none

/-- Reads on in a single-quoted scalar; the words read so far come latest character first.  Gives
the value and the text after the closing quote. -/
def readSingleQuoted? : List Char → Gap → List Char → Option (List Char × List Char)
  | [], _, _ => none
  | '\'' :: '\'' :: rest, g, acc => readSingleQuoted? rest .none ('\'' :: (g.folded ++ acc))
  | '\r' :: '\n' :: rest, g, acc => readSingleQuoted? rest (g.break_ '\n') acc
  | c :: rest, g, acc =>
    if isBlank c then readSingleQuoted? rest (g.blank c) acc
    else if isBreak c then readSingleQuoted? rest (g.break_ (keptBreak c)) acc
    else if g.atLineStart && startsDocumentMark (c :: rest) then none
    else if c = '\'' then some ((g.folded ++ acc).reverse, rest)
    else readSingleQuoted? rest .none (c :: (g.folded ++ acc))

/-- Reads on in a double-quoted scalar; the number first given counts the characters of an escape
that are still to be passed over. -/
def readDoubleQuoted? : Nat → List Char → Gap → List Char → Option (List Char × List Char)
  | _, [], _, _ => none
  | n + 1, _ :: rest, g, acc => readDoubleQuoted? n rest g acc
  | 0, '\r' :: '\n' :: rest, g, acc => readDoubleQuoted? 0 rest (g.break_ '\n') acc
  | 0, '\\' :: '\r' :: '\n' :: rest, g, acc =>
    readDoubleQuoted? 0 rest .escapedBreak (g.folded ++ acc)
  | 0, '\\' :: e :: rest, g, acc =>
    if isBreak e then readDoubleQuoted? 0 rest .escapedBreak (g.folded ++ acc)
    else
      match codeLength? e with
      | some k =>
        match Text.codePoint? k rest with
        | some c => readDoubleQuoted? k rest .none (c :: (g.folded ++ acc))
        | none => none
      | none =>
        match simpleEscape? e with
        | some c => readDoubleQuoted? 0 rest .none (c :: (g.folded ++ acc))
        | none => none
  | 0, c :: rest, g, acc =>
    if isBlank c then readDoubleQuoted? 0 rest (g.blank c) acc
    else if isBreak c then readDoubleQuoted? 0 rest (g.break_ (keptBreak c)) acc
    else if g.atLineStart && startsDocumentMark (c :: rest) then none
    else if c = '"' then some ((g.folded ++ acc).reverse, rest)
    else if c = '\\' then none
    else readDoubleQuoted? 0 rest .none (c :: (g.folded ++ acc))

end WorkflowOperator.Yaml
