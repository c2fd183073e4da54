import WorkflowOperator.Text.ShellWord

/-!
# Names made of restricted characters

The labels that name objects, the names of jobs, artifact tags and environment variables.
-/

namespace WorkflowOperator.Text

def isLowerAlphanumeric (c : Char) : Bool :=
  ('a' ≤ c && c ≤ 'z') || ('0' ≤ c && c ≤ '9')

def isLabelChar (c : Char) : Bool := isLowerAlphanumeric c || c == '-'

/-- A label is a nonempty text of lowercase letters, digits and `-` with no `-` at either end. -/
def isLabel (s : String) : Bool :=
  !s.toList.isEmpty && s.toList.all isLabelChar && s.toList.head? != some '-' &&
    s.toList.getLast? != some '-'

/-- The name of a job starts with a lowercase letter or digit and goes on with those, `_` and
`-`. -/
def isJobName (s : String) : Bool :=
  match s.toList with
  | [] => false
  | c :: rest => isLowerAlphanumeric c && rest.all fun c => isLabelChar c || c == '_'

/-- The letters, digits and underscore of seven-bit text. -/
def isWordChar (c : Char) : Bool := isAsciiAlphanumeric c || c == '_'

/-- An artifact tag starts with a letter, a digit or `_`, goes on with those, `.` and `-`, and has
at most 128 characters. -/
def isTag (s : String) : Bool :=
  match s.toList with
  | [] => false
  | c :: rest => isWordChar c && rest.all (fun c => isWordChar c || c == '.' || c == '-') &&
      rest.length ≤ 127

/-- The name of an environment variable starts with an uppercase letter or `_` and goes on with
those and digits. -/
def isVariableName (s : String) : Bool :=
  match s.toList with
  | [] => false
  | c :: rest => (('A' ≤ c && c ≤ 'Z') || c == '_') &&
      rest.all fun c => ('A' ≤ c && c ≤ 'Z') || ('0' ≤ c && c ≤ '9') || c == '_'

def isIdentifierStart (c : Char) : Bool :=
  ('a' ≤ c && c ≤ 'z') || ('A' ≤ c && c ≤ 'Z') || c == '_'

end WorkflowOperator.Text
