import Mathlib.Tactic.Lemma
import WorkflowOperator.Text.Label

/-!
# What shell words hold

Labels, names of jobs, of environment variables, tags and numbers are shell words, and so are shell words put
together. A shell word has no braces and breaks no line.
-/

namespace WorkflowOperator.Text

lemma isShellWord_append {s t : String} :
    isShellWord (s ++ t) = true ↔ isShellWord s = true ∧ isShellWord t = true := by
  simp [isShellWord]

lemma isShellWord_of_isEmpty {s : String} (h : s.isEmpty = true) : isShellWord s = true := by
  rw [String.isEmpty_iff.mp h]
  rfl

lemma isShellChar_of_isWordChar {c : Char} (h : isWordChar c = true) : isShellChar c = true := by
  unfold isWordChar at h
  unfold isShellChar
  grind

lemma isShellChar_of_isLabelChar {c : Char} (h : isLabelChar c = true) : isShellChar c = true := by
  unfold isLabelChar isLowerAlphanumeric at h
  unfold isShellChar isAsciiAlphanumeric
  grind

lemma isShellWord_of_isLabel {s : String} (h : isLabel s = true) : isShellWord s = true := by
  simp only [isLabel, Bool.and_eq_true] at h
  have hchar : ∀ c ∈ s.toList, isLabelChar c = true := List.all_eq_true.mp h.1.1.2
  exact List.all_eq_true.mpr fun c hc => isShellChar_of_isLabelChar (hchar c hc)

lemma isShellWord_of_isJobName {s : String} (h : isJobName s = true) : isShellWord s = true := by
  unfold isJobName at h
  unfold isShellWord
  cases hs : s.toList with
  | nil => rfl
  | cons c rest =>
    simp only [hs, Bool.and_eq_true] at h
    obtain ⟨hstart, hrest⟩ := h
    refine List.all_eq_true.mpr fun d hd => ?_
    rcases List.mem_cons.mp hd with rfl | hd
    · exact isShellChar_of_isLabelChar (Bool.or_eq_true_iff.mpr (Or.inl hstart))
    · rcases Bool.or_eq_true_iff.mp (List.all_eq_true.mp hrest d hd) with hlabel | hline
      · exact isShellChar_of_isLabelChar hlabel
      · rw [beq_iff_eq.mp hline]
        decide

lemma isShellWord_of_isTag {s : String} (h : isTag s = true) : isShellWord s = true := by
  unfold isTag at h
  unfold isShellWord
  cases hs : s.toList with
  | nil => rfl
  | cons c rest =>
    simp only [hs, Bool.and_eq_true] at h
    obtain ⟨⟨hstart, hrest⟩, -⟩ := h
    refine List.all_eq_true.mpr fun d hd => ?_
    rcases List.mem_cons.mp hd with rfl | hd
    · exact isShellChar_of_isWordChar hstart
    · have hd := List.all_eq_true.mp hrest d hd
      simp only [Bool.or_eq_true, beq_iff_eq] at hd
      rcases hd with (hword | rfl) | rfl
      · exact isShellChar_of_isWordChar hword
      · decide
      · decide

lemma isShellWord_of_isVariableName {s : String} (h : isVariableName s = true) :
    isShellWord s = true := by
  have hchar : ∀ c : Char, ('A' ≤ c && c ≤ 'Z') = true ∨ ('0' ≤ c && c ≤ '9') = true ∨
      (c == '_') = true → isShellChar c = true := by
    intro c hc
    refine isShellChar_of_isWordChar ?_
    simp only [isWordChar, isAsciiAlphanumeric, Bool.or_eq_true]
    rcases hc with hletter | hdigit | hline
    · exact Or.inl (Or.inl (Or.inr hletter))
    · exact Or.inl (Or.inr hdigit)
    · exact Or.inr hline
  unfold isVariableName at h
  unfold isShellWord
  cases hs : s.toList with
  | nil => rfl
  | cons c rest =>
    rw [hs, Bool.and_eq_true, Bool.or_eq_true] at h
    obtain ⟨hstart, hrest⟩ := h
    refine List.all_eq_true.mpr fun d hd => hchar d ?_
    rcases List.mem_cons.mp hd with rfl | hd
    · exact hstart.imp_right Or.inr
    · have hd := List.all_eq_true.mp hrest d hd
      rwa [Bool.or_eq_true, Bool.or_eq_true, or_assoc] at hd

lemma isWordChar_of_mem_toString {n : Nat} {c : Char} (h : c ∈ (toString n).toList) :
    isWordChar c = true := by
  have htext : (toString n).toList = Nat.toDigits 10 n := Nat.toList_repr
  have hdigit := Nat.isDigit_of_mem_toDigits (b := 10) (by decide) (by decide) (htext ▸ h)
  simp only [Char.isDigit, Bool.and_eq_true, decide_eq_true_eq] at hdigit
  simp only [isWordChar, isAsciiAlphanumeric, Bool.or_eq_true, Bool.and_eq_true, decide_eq_true_eq]
  exact Or.inl (Or.inr hdigit)

lemma isShellWord_toString (n : Nat) : isShellWord (toString n) = true :=
  List.all_eq_true.mpr fun _ hc => isShellChar_of_isWordChar (isWordChar_of_mem_toString hc)

lemma not_mem_of_isShellWord {s : String} (h : isShellWord s = true) {c : Char}
    (hc : isShellChar c = false) : c ∉ s.toList := by
  intro hmem
  rw [List.all_eq_true.mp h c hmem] at hc
  cases hc

end WorkflowOperator.Text
