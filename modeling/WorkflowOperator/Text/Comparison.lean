import WorkflowOperator.Text.Blank

/-!
# Comparisons with a number

A comparison is an operator and a decimal number, with blanks around both.
-/

namespace WorkflowOperator.Text

/-- The text after the comparison operator that stands at the front; a longer operator counts before
the one it starts with. -/
def afterOperator? : List Char → Option (List Char)
  | '<' :: '=' :: rest => some rest
  | '>' :: '=' :: rest => some rest
  | '=' :: '=' :: rest => some rest
  | '<' :: rest => some rest
  | '>' :: rest => some rest
  | '=' :: rest => some rest
  | _ => none

/-- The text after the digits at the front, of which there must be one. -/
def afterDigits? : List Char → Option (List Char)
  | [] => none
  | c :: rest => if c.isDigit then some (rest.dropWhile Char.isDigit) else none

def afterNumber? (s : List Char) : Option (List Char) :=
  match afterDigits? (if s.head? = some '-' then s.drop 1 else s) with
  | none => none
  | some rest =>
    match rest with
    | '.' :: fraction => (afterDigits? fraction).orElse fun _ => some rest
    | _ => some rest

def isComparison (s : String) : Bool :=
  match afterOperator? (s.toList.dropWhile isAsciiBlank) with
  | none => false
  | some rest =>
    match afterNumber? (rest.dropWhile isAsciiBlank) with
    | none => false
    | some rest => rest.all isAsciiBlank

end WorkflowOperator.Text
