import WorkflowOperator.Json
import WorkflowOperator.Text.Quoted

/-!
# Printing JSON

The text of a JSON value, on one line or with one line for every member and item.
-/

namespace WorkflowOperator.Json

/-- A character inside a quoted text.  Control characters have short escapes where there are any, and
a code point of four digits otherwise. -/
def escape (c : Char) : List Char :=
  if c = '"' then ['\\', '"']
  else if c = '\\' then ['\\', '\\']
  else if c = '\n' then ['\\', 'n']
  else if c = '\r' then ['\\', 'r']
  else if c = '\t' then ['\\', 't']
  else if c = '\x08' then ['\\', 'b']
  else if c = '\x0c' then ['\\', 'f']
  else if c.toNat < 0x20 then
    let digits := Text.hexDigits c.toNat
    ['\\', 'u'] ++ List.replicate (4 - digits.length) '0' ++ digits
  else [c]

def quote (s : String) : String := String.ofList ('"' :: s.toList.flatMap escape ++ ['"'])

/-- A whole number divided by a power of ten, in positional notation. -/
def numberText (digits : Int) (places : Nat) : String :=
  if places = 0 then toString digits
  else
    let ds := (toString digits.natAbs).toList
    let padded := List.replicate (places + 1 - ds.length) '0' ++ ds
    let whole := padded.take (padded.length - places)
    let fraction := padded.drop (padded.length - places)
    String.ofList ((if digits < 0 then ['-'] else []) ++ whole ++ '.' :: fraction)

mutual

/-- The text of a value without any blanks. -/
def compact : Json → String
  | .null => "null"
  | .bool b => toString b
  | .number digits places => numberText digits places
  | .string s => quote s
  | .array items => "[" ++ ",".intercalate (compactItems items) ++ "]"
  | .object members => "\x7b" ++ ",".intercalate (compactMembers members) ++ "\x7d"

def compactItems : List Json → List String
  | [] => []
  | v :: rest => v.compact :: compactItems rest

def compactMembers : List (String × Json) → List String
  | [] => []
  | (name, v) :: rest => (quote name ++ ":" ++ v.compact) :: compactMembers rest

end

/-- The lines between two brackets, one for each part, at a depth of indentation. -/
def bracketed (opening closing : String) (depth : Nat) (parts : List String) : String :=
  match parts with
  | [] => opening ++ closing
  | parts =>
    let line (n : Nat) := "\n" ++ String.ofList (List.replicate (2 * n) ' ')
    opening ++ line (depth + 1) ++ ("," ++ line (depth + 1)).intercalate parts ++ line depth ++
      closing

mutual

/-- The text of a value with two blanks of indentation for each depth. -/
def pretty (depth : Nat) : Json → String
  | .null => "null"
  | .bool b => toString b
  | .number digits places => numberText digits places
  | .string s => quote s
  | .array items => bracketed "[" "]" depth (prettyItems (depth + 1) items)
  | .object members => bracketed "\x7b" "\x7d" depth (prettyMembers (depth + 1) members)

def prettyItems (depth : Nat) : List Json → List String
  | [] => []
  | v :: rest => pretty depth v :: prettyItems depth rest

def prettyMembers (depth : Nat) : List (String × Json) → List String
  | [] => []
  | (name, v) :: rest => (quote name ++ ": " ++ pretty depth v) :: prettyMembers depth rest

end

end WorkflowOperator.Json
