import Mathlib.Data.List.Basic
import Mathlib.Tactic.Lemma
import WorkflowOperator.Text.Lines

/-!
# Lines and parts of texts

No part of a text has a separator, so parts that have none come back from the text that they are joined
to. A text is indented line by line, and from its lines the indentation can be taken away again.
-/

namespace WorkflowOperator.Text

section
variable {separator : Char} {s t : List Char}

lemma parts_cons_separator : parts separator (separator :: s) = [] :: parts separator s :=
  if_pos rfl

lemma parts_cons_of_ne {c : Char} (h : c ≠ separator) {part : List Char} {more : List (List Char)}
    (hs : parts separator s = part :: more) : parts separator (c :: s) = (c :: part) :: more := by
  rw [parts, if_neg h, hs]

lemma parts_append : parts separator (s ++ separator :: t) =
    parts separator s ++ parts separator t := by
  induction s with
  | nil => exact parts_cons_separator
  | cons c s ih =>
    by_cases hc : c = separator
    · rw [hc, List.cons_append, parts_cons_separator, ih, parts_cons_separator, List.cons_append]
    · obtain ⟨part, more, hs⟩ := List.exists_cons_of_ne_nil (parts_ne_nil separator s)
      rw [hs] at ih
      rw [List.cons_append, parts_cons_of_ne hc ih, parts_cons_of_ne hc hs]
      rfl

lemma parts_of_notMem (h : separator ∉ s) : parts separator s = [s] := by
  induction s with
  | nil => rfl
  | cons c s ih =>
    rw [List.mem_cons, not_or] at h
    exact parts_cons_of_ne (Ne.symm h.1) (ih h.2)

lemma notMem_of_mem_parts {part : List Char} (h : part ∈ parts separator s) : separator ∉ part := by
  induction s generalizing part with
  | nil =>
    rw [parts, List.mem_singleton] at h
    rw [h]
    exact List.not_mem_nil
  | cons c s ih =>
    by_cases hc : c = separator
    · rw [hc, parts_cons_separator, List.mem_cons] at h
      rcases h with rfl | h
      · exact List.not_mem_nil
      · exact ih h
    · obtain ⟨first, more, hs⟩ := List.exists_cons_of_ne_nil (parts_ne_nil separator s)
      rw [parts_cons_of_ne hc hs, List.mem_cons] at h
      rcases h with rfl | h
      · rw [List.mem_cons, not_or]
        exact ⟨Ne.symm hc, ih (hs ▸ List.mem_cons_self)⟩
      · exact ih (hs ▸ List.mem_cons_of_mem first h)

lemma parts_joinParts {l : List (List Char)} (hne : l ≠ []) (h : ∀ part ∈ l, separator ∉ part) :
    parts separator (joinParts separator l) = l := by
  induction l with
  | nil => exact absurd rfl hne
  | cons part l ih =>
    rw [List.forall_mem_cons] at h
    by_cases hl : l = []
    · rw [hl]
      exact parts_of_notMem h.1
    · rw [joinParts_cons hl, parts_append, parts_of_notMem h.1, ih hl h.2, List.singleton_append]

lemma notMem_joinParts {c : Char} (hc : c ≠ separator) {l : List (List Char)}
    (h : ∀ part ∈ l, c ∉ part) : c ∉ joinParts separator l := by
  induction l with
  | nil => exact List.not_mem_nil
  | cons part l ih =>
    rw [List.forall_mem_cons] at h
    by_cases hl : l = []
    · rw [hl]
      exact h.1
    · rw [joinParts_cons hl, List.mem_append, List.mem_cons, not_or, not_or]
      exact ⟨h.1, hc, ih h.2⟩

end

lemma flatMap_splitLines (s : List Char) :
    (splitLines s).flatMap (fun line => line ++ ['\n']) = s ++ ['\n'] := by
  have hjoin : ∀ lines : List (List Char), lines ≠ [] →
      lines.flatMap (fun line => line ++ ['\n']) = joinLines lines ++ ['\n'] := by
    intro lines hne
    induction lines with
    | nil => exact absurd rfl hne
    | cons line lines ih =>
      by_cases hlines : lines = []
      · rw [hlines]
        simp [joinLines, joinParts]
      · rw [List.flatMap_cons, ih hlines, joinLines, joinLines, joinParts_cons hlines]
        simp
  rw [hjoin (splitLines s) (parts_ne_nil '\n' s), joinLines_splitLines]

/-! ### Indentation -/

/-- A line without its indentation, if it is indented or empty. -/
def outdentLine? (indent line : List Char) : Option (List Char) :=
  if line.isEmpty then some [] else line.dropPrefix? indent

lemma outdentLine_indentLine (indent line : List Char) :
    outdentLine? indent (indentLine indent line) = some line := by
  cases line with
  | nil => rfl
  | cons c line =>
    have hne : (indent ++ c :: line).isEmpty = false := by simp
    rw [indentLine, if_neg (by simp), outdentLine?, hne, if_neg Bool.false_ne_true]
    exact List.dropPrefix?_append_of_beq _ (beq_self_eq_true indent)

lemma mapM_outdentLine (indent : List Char) (lines : List (List Char)) :
    (lines.map (indentLine indent)).mapM (outdentLine? indent) = some lines := by
  induction lines with
  | nil => rfl
  | cons line lines ih =>
    rw [List.map_cons, List.mapM_cons, outdentLine_indentLine, ih]
    rfl

lemma splitLines_reindent {indent : String} (h : '\n' ∉ indent.toList) (s : String) :
    splitLines (reindent indent s).toList = (splitLines s.toList).map (indentLine indent.toList) := by
  rw [reindent, String.toList_ofList]
  refine parts_joinParts ?_ ?_
  · rw [Ne, List.map_eq_nil_iff]
    exact parts_ne_nil '\n' _
  · intro line hline
    obtain ⟨l, hl, rfl⟩ := List.mem_map.mp hline
    unfold indentLine
    split
    · exact List.not_mem_nil
    · rw [List.mem_append, not_or]
      exact ⟨h, notMem_of_mem_parts hl⟩

end WorkflowOperator.Text
