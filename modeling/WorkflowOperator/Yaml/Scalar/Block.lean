import WorkflowOperator.Yaml.Position

/-!
# Block scalars

A literal or folded scalar holds the lines after its header that are indented as far as its first
one, or as far as the header says.  The header also says what becomes of the breaks at its end.
-/

namespace WorkflowOperator.Yaml

/-- What becomes of the line breaks at the end of a block scalar. -/
inductive Chomping
  /-- None is kept. -/
  | strip
  /-- The first is kept. -/
  | clip
  /-- All are kept. -/
  | keep
deriving DecidableEq, Repr

/-- The header of a block scalar. -/
structure BlockHeader where
  chomping : Chomping
  /-- How far the lines are indented beyond the collection around the scalar, if that is said. -/
  increment : Option Nat
deriving DecidableEq, Repr

def chomping? : List Char → Option (Chomping × List Char)
  | '+' :: rest => some (.keep, rest)
  | '-' :: rest => some (.strip, rest)
  | _ => none

/-- The indentation indicator at the start of a text, which must not be zero. -/
def increment? : List Char → Option (Option Nat × List Char)
  | c :: rest =>
    if c = '0' then none
    else if c.isDigit then some (some (c.toNat - 48), rest)
    else some (none, c :: rest)
  | [] => some (none, [])

/-- A comment and blanks up to the end of the line, which must follow a header. -/
def endOfHeader? (s : List Char) : Option (List Char) :=
  match s.dropWhile isBlank with
  | [] => some []
  | c :: rest =>
    if c = '#' then some (rest.dropWhile fun c => !isBreak c)
    else if isBreak c then some (c :: rest)
    else none

def dropBreak : List Char → List Char
  | '\r' :: '\n' :: rest => rest
  | c :: rest => if isBreak c then rest else c :: rest
  | [] => []

/-- The header at the start of a text, after its first indicator, and the text from the next line
on.  The two further indicators may come in either order. -/
def readBlockHeader? (s : List Char) : Option (BlockHeader × List Char) :=
  match chomping? s with
  | some (chomping, r) =>
    (increment? r).bind fun (increment, r) =>
      (endOfHeader? r).map fun r => (⟨chomping, increment⟩, dropBreak r)
  | none =>
    (increment? s).bind fun (increment, r) =>
      let (chomping, r) := match increment with
        | some _ => (chomping? r).getD (.clip, r)
        | none => (.clip, r)
      (endOfHeader? r).map fun r => (⟨chomping, increment⟩, dropBreak r)

/-- The blank lines before a line of a block scalar, and that line's indentation. -/
structure BlockLead where
  /-- The breaks, latest first. -/
  breaks : List Char
  /-- The widest indentation that was met. -/
  widest : Nat
  /-- The column that was reached. -/
  column : Nat
  rest : List Char

/-- Reads blank lines and indentation up to the given column, or as far as it goes; a tab may not
stand for indentation. -/
def readBlockLead? (indent : Option Nat) :
    List Char → Nat → Nat → List Char → Option BlockLead
  | [], column, widest, breaks => some ⟨breaks, max widest column, column, []⟩
  | '\r' :: '\n' :: rest, column, widest, breaks =>
    readBlockLead? indent rest 0 (max widest column) ('\n' :: breaks)
  | c :: rest, column, widest, breaks =>
    if indent.all (column < ·) && c == ' ' then
      readBlockLead? indent rest (column + 1) widest breaks
    else if indent.all (column < ·) && c == '\t' then none
    else if isBreak c then
      readBlockLead? indent rest 0 (max widest column) (keptBreak c :: breaks)
    else some ⟨breaks, max widest column, column, c :: rest⟩

/-- What has been read of a block scalar. -/
structure BlockText where
  /-- The text so far, latest character first. -/
  text : List Char
  /-- The break after the last line. -/
  lead : Option Char
  /-- The breaks of blank lines after it, latest first. -/
  trail : List Char
  /-- Whether the last line started with a blank. -/
  indented : Bool

/-- The break at the end of a line, as it is kept. -/
def lineEnd? : List Char → Option Char
  | [] => none
  | c :: _ => if isBreak c then some (keptBreak c) else none

/-- The text so far as it goes on with a further line: in a folded scalar a line feed between two
lines that start with no blank becomes a space, or nothing before blank lines. -/
def BlockText.continued (b : BlockText) (folded : Bool) (line : List Char) : List Char :=
  let indented := match line with
    | c :: _ => isBlank c
    | [] => false
  let joined :=
    if folded && b.lead == some '\n' && !b.indented && !indented then
      if b.trail.isEmpty then ' ' :: b.text else b.text
    else b.lead.toList ++ b.text
  b.trail ++ joined

def BlockText.chomped (b : BlockText) : Chomping → List Char
  | .strip => b.text.reverse
  | .clip => (b.lead.toList ++ b.text).reverse
  | .keep => (b.trail ++ (b.lead.toList ++ b.text)).reverse

theorem length_dropBreak_le (s : List Char) : (dropBreak s).length ≤ s.length := by
  unfold dropBreak
  split
  · simp only [List.length_cons]
    omega
  · split <;> simp
  · exact Nat.le_refl _

/-- The first line of a text, without its break. -/
def firstLine (s : List Char) : List Char := s.takeWhile fun c => !isBreak c

/-- The text from the break after its first line on. -/
def afterLine (s : List Char) : List Char := s.dropWhile fun c => !isBreak c

theorem length_afterLine_lt (c : Char) (rest : List Char) :
    (dropBreak (afterLine (c :: rest))).length < (c :: rest).length := by
  unfold afterLine
  by_cases hc : isBreak c = true
  · have : (c :: rest).dropWhile (fun c => !isBreak c) = c :: rest := by simp [hc]
    rw [this]
    unfold dropBreak
    split
    next hpair =>
      rw [hpair]
      simp only [List.length_cons]
      omega
    next hcons =>
      obtain ⟨rfl, rfl⟩ := List.cons.inj hcons
      rw [if_pos hc]
      exact Nat.lt_succ_self _
    next hnil => cases hnil
  · have h₁ := length_dropBreak_le ((c :: rest).dropWhile fun c => !isBreak c)
    have h₂ : ((c :: rest).dropWhile fun c => !isBreak c) = rest.dropWhile fun c => !isBreak c := by
      simp [hc]
    have h₃ : (rest.dropWhile fun c => !isBreak c).length ≤ rest.length :=
      (List.dropWhile_sublist _).length_le
    rw [h₂] at h₁ ⊢
    simp only [List.length_cons]
    omega

theorem length_readBlockLead?_le {indent : Option Nat} {s : List Char} {column widest : Nat}
    {breaks : List Char} {lead : BlockLead}
    (h : readBlockLead? indent s column widest breaks = some lead) :
    lead.rest.length ≤ s.length := by
  fun_induction readBlockLead? indent s column widest breaks with
  | case1 => simp only [Option.some.injEq] at h; subst h; simp
  | case2 _ _ _ _ ih => have := ih h; simp only [List.length_cons]; omega
  | case3 _ _ _ _ _ _ _ ih => have := ih h; simp only [List.length_cons]; omega
  | case4 => simp at h
  | case5 _ _ _ _ _ _ _ _ _ ih => have := ih h; simp only [List.length_cons]; omega
  | case6 => simp only [Option.some.injEq] at h; subst h; simp

/-- Reads the lines of a block scalar from the first one that is indented far enough. -/
def readBlockLines? (folded : Bool) (indent : Nat) (column : Nat) (s : List Char)
    (b : BlockText) : Option (BlockText × List Char) :=
  match s with
  | [] => some (b, [])
  | c :: rest =>
    if column = indent then
      match _h : readBlockLead? (some indent) (dropBreak (afterLine (c :: rest))) 0 0 [] with
      | none => none
      | some lead =>
        readBlockLines? folded indent lead.column lead.rest
          ⟨(firstLine (c :: rest)).reverse ++ b.continued folded (firstLine (c :: rest)),
            lineEnd? (afterLine (c :: rest)), lead.breaks, isBlank c⟩
    else some (b, c :: rest)
termination_by s.length
decreasing_by
  have h₁ := length_afterLine_lt c rest
  have h₂ := length_readBlockLead?_le _h
  simp only [List.length_cons] at h₁ ⊢
  omega

/-- Reads a block scalar after its first indicator, in a collection of the given indentation.
Gives the value and the text after it. -/
def readBlock? (folded : Bool) (parent : Int) (s : List Char) :
    Option (List Char × List Char) := do
  let (header, r) ← readBlockHeader? s
  let given : Option Nat := header.increment.map fun n => (max parent 0).toNat + n
  let lead ← readBlockLead? given r 0 0 []
  let indent := given.getD (max lead.widest (max (parent + 1) 1).toNat)
  let (b, rest) ← readBlockLines? folded indent lead.column lead.rest ⟨[], none, lead.breaks, false⟩
  return (b.chomped header.chomping, rest)

end WorkflowOperator.Yaml
