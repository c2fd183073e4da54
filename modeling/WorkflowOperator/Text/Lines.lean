/-!
# Lines

Texts as sequences of parts between separators, above all of lines between line feeds, and indentation
of lines.  Joining the parts of a text gives back the text.
-/

namespace WorkflowOperator.Text

/-- The parts of a text between separators; a text without the separator is one part. -/
def parts (separator : Char) : List Char → List (List Char)
  | [] => [[]]
  | c :: rest =>
    if c = separator then [] :: parts separator rest
    else
      match parts separator rest with
      | [] => [[c]]
      | part :: more => (c :: part) :: more

def joinParts (separator : Char) : List (List Char) → List Char
  | [] => []
  | [part] => part
  | part :: rest => part ++ separator :: joinParts separator rest

/-- The lines of a text; a text without a line feed has one. -/
def splitLines (s : List Char) : List (List Char) := parts '\n' s

def joinLines (lines : List (List Char)) : List Char := joinParts '\n' lines

def indentLine (indent line : List Char) : List Char :=
  if line.isEmpty then [] else indent ++ line

/-- A text with an indent in front of every line that is not empty. -/
def reindent (indent text : String) : String :=
  String.ofList (joinLines ((splitLines text.toList).map (indentLine indent.toList)))

def endsLine (s : String) : Bool := s.toList.getLast? == some '\n'

/-- A text with a line feed at its end, unless it has one there. -/
def terminated (s : String) : String := if endsLine s then s else s ++ "\n"

/-- The text of given lines with a line feed after each. -/
def asLines (lines : List String) : String := String.join (lines.map (· ++ "\n"))

theorem parts_ne_nil (separator : Char) (s : List Char) : parts separator s ≠ [] := by
  cases s with
  | nil => simp [parts]
  | cons c rest =>
    rw [parts]
    split
    · simp
    · split <;> simp

theorem joinParts_cons {separator : Char} {part : List Char} {rest : List (List Char)}
    (h : rest ≠ []) :
    joinParts separator (part :: rest) = part ++ separator :: joinParts separator rest := by
  cases rest with
  | nil => exact absurd rfl h
  | cons a b => rfl

theorem joinParts_parts (separator : Char) (s : List Char) :
    joinParts separator (parts separator s) = s := by
  induction s with
  | nil => rfl
  | cons c rest ih =>
    have hne := parts_ne_nil separator rest
    rw [parts]
    split
    next h => rw [joinParts_cons hne, ih, h]; rfl
    next =>
      split
      next h => exact absurd h hne
      next part more h =>
        rw [h] at ih
        cases more with
        | nil => simpa [joinParts] using ih
        | cons a b => simpa [joinParts] using ih

theorem joinLines_splitLines (s : List Char) : joinLines (splitLines s) = s :=
  joinParts_parts '\n' s

end WorkflowOperator.Text
