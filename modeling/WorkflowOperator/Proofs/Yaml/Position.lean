import Mathlib.Tactic.Lemma
import WorkflowOperator.Yaml.Position

/-!
# Marks and positions

Which characters no mark of a document starts with, and how far positions advance over a part of one
line and over the end of a line.
-/

namespace WorkflowOperator.Yaml

lemma startsMark_of_ne {mark c : Char} (h : c ≠ mark) (rest : List Char) :
    startsMark mark (c :: rest) = false := by
  unfold startsMark
  split
  · rename_i heq
    cases heq
    simp [h]
  · rfl

lemma startsDocumentMark_of_ne {c : Char} (hdash : c ≠ '-') (hdot : c ≠ '.') (rest : List Char) :
    startsDocumentMark (c :: rest) = false := by
  rw [startsDocumentMark, startsMark_of_ne hdash, startsMark_of_ne hdot]
  rfl

/-! ### Positions -/

lemma after_crlf (p : Position) (rest : List Char) :
    p.after ('\r' :: '\n' :: rest) = (⟨p.index + 2, p.line + 1, 0⟩ : Position).after rest := by
  rw [Position.after]

lemma after_break {c : Char} (h : isBreak c = true) (p : Position) {rest : List Char}
    (hrest : c = '\r' → rest.head? ≠ some '\n') :
    p.after (c :: rest) = (⟨p.index + 1, p.line + 1, 0⟩ : Position).after rest := by
  rw [Position.after]
  · rw [if_pos h]
  · intro tail hc htail
    exact hrest hc (by rw [htail]; rfl)

lemma after_word {c : Char} (h : isBreak c = false) (p : Position) (rest : List Char) :
    p.after (c :: rest) = (⟨p.index + 1, p.line, p.column + 1⟩ : Position).after rest := by
  rw [Position.after]
  · rw [h]
    rfl
  · rintro tail rfl
    cases h

lemma after_words {s : List Char} (h : ∀ c ∈ s, isBreak c = false) (p : Position)
    (rest : List Char) :
    p.after (s ++ rest) =
      (⟨p.index + s.length, p.line, p.column + s.length⟩ : Position).after rest := by
  induction s generalizing p with
  | nil => rfl
  | cons c s ih =>
    rw [List.cons_append, after_word (h c List.mem_cons_self),
      ih fun d hd => h d (List.mem_cons_of_mem _ hd), List.length_cons]
    have hindex : p.index + 1 + s.length = p.index + (s.length + 1) := by omega
    have hcolumn : p.column + 1 + s.length = p.column + (s.length + 1) := by omega
    rw [hindex, hcolumn]

lemma line_le_after (p : Position) (s : List Char) : p.line ≤ (p.after s).line := by
  fun_induction Position.after p s with
  | case1 p => exact Nat.le_refl _
  | case2 p rest ih => exact Nat.le_trans (Nat.le_succ _) ih
  | case3 p c rest _ hbreak ih => exact Nat.le_trans (Nat.le_succ _) ih
  | case4 p c rest _ hword ih => exact ih

lemma line_lt_after {s : List Char} (h : ∃ c ∈ s, isBreak c = true) (p : Position) :
    p.line < (p.after s).line := by
  fun_induction Position.after p s with
  | case1 p => simp at h
  | case2 p rest ih =>
    have hle := line_le_after ⟨p.index + 2, p.line + 1, 0⟩ rest
    exact Nat.lt_of_lt_of_le (Nat.lt_succ_self _) hle
  | case3 p c rest _ hbreak ih =>
    have hle := line_le_after ⟨p.index + 1, p.line + 1, 0⟩ rest
    exact Nat.lt_of_lt_of_le (Nat.lt_succ_self _) hle
  | case4 p c rest _ hword ih =>
    obtain ⟨d, hd, hbreak⟩ := h
    rcases List.mem_cons.mp hd with rfl | hd
    · exact absurd hbreak hword
    · exact ih ⟨d, hd, hbreak⟩

/-- The column after the end of a line and some words depends on the words alone. -/
lemma column_after_line {word : List Char} (hword : ∀ c ∈ word, isBreak c = false)
    (s : List Char) (p : Position) : (p.after (s ++ '\n' :: word)).column = word.length := by
  have hlast : ∀ q : Position, q.column = 0 → (q.after word).column = word.length := by
    intro q hq
    have hafter := after_words hword q []
    rw [List.append_nil] at hafter
    rw [hafter, Position.after, hq]
    exact Nat.zero_add _
  fun_induction Position.after p s with
  | case1 p =>
    rw [List.nil_append, after_break (by decide) p (fun h => absurd h (by decide))]
    exact hlast _ rfl
  | case2 p rest ih =>
    rw [List.cons_append, List.cons_append, after_crlf]
    exact ih
  | case3 p c rest hcrlf hbreak ih =>
    cases rest with
    | nil =>
      -- a carriage return and the line feed after it make one break
      rw [List.singleton_append]
      by_cases hr : c = '\r'
      · rw [hr, after_crlf]
        exact hlast _ rfl
      · rw [after_break hbreak p (fun h => absurd h hr)]
        exact ih
    | cons d rest =>
      have hnot : c = '\r' → (d :: rest ++ '\n' :: word).head? ≠ some '\n' := by
        intro hr hd
        rw [List.cons_append, List.head?_cons, Option.some.injEq] at hd
        exact hcrlf rest hr (by rw [hd])
      rw [List.cons_append, after_break hbreak p hnot]
      exact ih
  | case4 p c rest hcrlf hbreak ih =>
    rw [List.cons_append, after_word (by simpa using hbreak)]
    exact ih

end WorkflowOperator.Yaml
