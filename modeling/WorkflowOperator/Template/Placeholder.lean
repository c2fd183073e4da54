import WorkflowOperator.Text.Blank
import WorkflowOperator.Text.Label

/-!
# Placeholders in a text

A placeholder is two opening braces, an identifier and two closing braces, with white space allowed
inside the braces.  A text is read from the left into placeholders and single characters.
-/

namespace WorkflowOperator.Template

open Text

/-- The placeholder at the very start of a text: its name and the text after it. -/
def readPlaceholder? : List Char → Option (List Char × List Char)
  | '{' :: '{' :: inner =>
    match inner.dropWhile isAsciiBlank with
    | [] => none
    | c :: more =>
      if isIdentifierStart c then
        match (more.dropWhile isWordChar).dropWhile isAsciiBlank with
        | '}' :: '}' :: rest => some (c :: more.takeWhile isWordChar, rest)
        | _ => none
      else none
  | _ => none

theorem length_dropWhile_le {α : Type} (p : α → Bool) (l : List α) :
    (l.dropWhile p).length ≤ l.length := (List.dropWhile_sublist p).length_le

theorem length_lt_of_readPlaceholder? {s name rest : List Char}
    (h : readPlaceholder? s = some (name, rest)) : rest.length < s.length := by
  unfold readPlaceholder? at h
  split at h
  next inner =>
    split at h
    next => simp at h
    next c more heq =>
      split at h
      next =>
        split at h
        next tail heq₂ =>
          simp only [Option.some.injEq, Prod.mk.injEq] at h
          have h₁ := length_dropWhile_le isAsciiBlank inner
          have h₂ := length_dropWhile_le isWordChar more
          have h₃ := length_dropWhile_le isAsciiBlank (more.dropWhile isWordChar)
          rw [heq] at h₁
          rw [heq₂, h.2] at h₃
          simp only [List.length_cons] at h₁ h₃ ⊢
          omega
        next => simp at h
      next => simp at h
  next => simp at h

/-- A part of a text: a placeholder or a character outside of all placeholders. -/
inductive Piece
  | placeholder (name : String)
  | char (c : Char)
deriving DecidableEq, Repr

/-- The parts of a text from left to right. -/
def pieces : List Char → List Piece
  | [] => []
  | c :: r =>
    match _h : readPlaceholder? (c :: r) with
    | some (name, rest) => .placeholder (String.ofList name) :: pieces rest
    | none => .char c :: pieces r
termination_by s => s.length
decreasing_by
  · exact length_lt_of_readPlaceholder? _h
  · simp

def Piece.name? : Piece → Option String
  | .placeholder name => some name
  | .char _ => none

/-- The characters of a text outside of its placeholders. -/
def outside (s : List Char) : List Char :=
  (pieces s).filterMap fun
    | .placeholder _ => none
    | .char c => some c

def placeholderNames (s : List Char) : List String := (pieces s).filterMap Piece.name?

/-- The rest of a text from its first two adjoining opening braces on. -/
def opening? : List Char → Option (List Char)
  | [] => none
  | '{' :: '{' :: rest => some ('{' :: '{' :: rest)
  | _ :: rest => opening? rest

/-- A placeholder of the given name as it is written in the library's own templates. -/
def slot (name : String) : String := "\x7b\x7b " ++ name ++ " \x7d\x7d"

end WorkflowOperator.Template
