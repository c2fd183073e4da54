/-!
# Shell words

Texts that a shell reads as one plain word, whether quoted or not, and as nothing but themselves.
-/

namespace WorkflowOperator.Text

def isAsciiAlphanumeric (c : Char) : Bool :=
  ('a' ≤ c && c ≤ 'z') || ('A' ≤ c && c ≤ 'Z') || ('0' ≤ c && c ≤ '9')

/-- The characters of a shell word: letters, digits and punctuation without a meaning to a shell. -/
def isShellChar (c : Char) : Bool :=
  isAsciiAlphanumeric c || c ∈ ['.', '_', '-', '/', ':', '@', '%', '+', '=', ',']

/-- Whether every character of a text is one of a shell word; so the empty text is a shell word. -/
def isShellWord (s : String) : Bool := s.toList.all isShellChar

def firstUnsafe? (s : String) : Option Char := s.toList.find? fun c => !isShellChar c

theorem firstUnsafe?_eq_none_iff {s : String} : firstUnsafe? s = none ↔ isShellWord s = true := by
  simp [firstUnsafe?, isShellWord, List.find?_eq_none]

end WorkflowOperator.Text
