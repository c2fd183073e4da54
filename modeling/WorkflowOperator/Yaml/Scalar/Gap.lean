import WorkflowOperator.Yaml.Position

/-!
# White space inside flow scalars

Between two words of a plain or quoted scalar there may be blanks and line breaks.  Blanks on one
line are kept, a single line feed becomes a space, and of several breaks the first is dropped.
-/

namespace WorkflowOperator.Yaml

/-- The white space read since the last word of a scalar. -/
structure Gap where
  /-- The blanks before the first break, latest first. -/
  blanks : List Char
  /-- Whether a break, escaped or not, has been read. -/
  broken : Bool
  /-- The first break, unless it was escaped. -/
  lead : Option Char
  /-- The further breaks, latest first. -/
  trail : List Char
  /-- The number of blanks since the last break. -/
  column : Nat
deriving DecidableEq, Repr

namespace Gap

def none : Gap := ⟨[], false, .none, [], 0⟩

/-- The gap after a break that a backslash has taken away. -/
def escapedBreak : Gap := ⟨[], true, .none, [], 0⟩

def isSome (g : Gap) : Bool := g.broken || !g.blanks.isEmpty

def blank (g : Gap) (c : Char) : Gap :=
  if g.broken then { g with column := g.column + 1 } else { g with blanks := c :: g.blanks }

def break_ (g : Gap) (c : Char) : Gap :=
  if g.broken then { g with trail := c :: g.trail, column := 0 }
  else ⟨[], true, some c, [], 0⟩

/-- Whether the next character stands first on its line. -/
def atLineStart (g : Gap) : Bool := g.broken && g.column == 0

/-- What the gap becomes between two words, latest character first. -/
def folded (g : Gap) : List Char :=
  if g.broken then
    match g.lead with
    | .none => g.trail
    | some c => if c = '\n' then (if g.trail.isEmpty then [' '] else g.trail) else g.trail ++ [c]
  else g.blanks

end Gap

end WorkflowOperator.Yaml
