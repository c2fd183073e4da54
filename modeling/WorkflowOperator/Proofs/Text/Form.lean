import Mathlib.Data.Char
import Mathlib.Data.Set.Insert
import Mathlib.Order.Interval.Set.Defs
import Mathlib.Tactic.Lemma
import WorkflowOperator.Text.Comparison
import WorkflowOperator.Text.Label

/-!
# The forms of names, tags and comparisons

What a label, the name of a job, a tag, the name of a variable, a shell word and a comparison look like is
said here without the checks for them: by sets of characters, by the first character and what follows it,
and for a comparison by the parts that it is written from. Each check accepts exactly the texts of its form.
-/

namespace WorkflowOperator.Text

/-! ### Characters -/

def digits : Set Char := Set.Icc '0' '9'

def lowerAlphanumerics : Set Char := Set.Icc 'a' 'z' ∪ digits

def alphanumerics : Set Char := Set.Icc 'a' 'z' ∪ Set.Icc 'A' 'Z' ∪ digits

/-- The characters that stand for themselves in any word of a shell. -/
def shellChars : Set Char := alphanumerics ∪ {'.', '_', '-', '/', ':', '@', '%', '+', '=', ','}

/-- The white space of seven-bit text. -/
def spaces : Set Char := {' ', '\t', '\n', '\x0b', '\x0c', '\r'}

lemma isDigit_iff {c : Char} : c.isDigit = true ↔ c ∈ digits := by
  simp only [Char.isDigit, Bool.and_eq_true, decide_eq_true_eq, digits, Set.mem_Icc]
  exact Iff.rfl

lemma isLowerAlphanumeric_iff {c : Char} :
    isLowerAlphanumeric c = true ↔ c ∈ lowerAlphanumerics := by
  simp [isLowerAlphanumeric, lowerAlphanumerics, digits]

lemma isAsciiAlphanumeric_iff {c : Char} : isAsciiAlphanumeric c = true ↔ c ∈ alphanumerics := by
  simp [isAsciiAlphanumeric, alphanumerics, digits, or_assoc]

lemma isShellChar_iff {c : Char} : isShellChar c = true ↔ c ∈ shellChars := by
  simp only [isShellChar, shellChars, Bool.or_eq_true, isAsciiAlphanumeric_iff, decide_eq_true_eq,
    List.mem_cons, List.not_mem_nil, or_false, Set.mem_union, Set.mem_insert_iff,
    Set.mem_singleton_iff]

lemma isWordChar_iff {c : Char} : isWordChar c = true ↔ c ∈ alphanumerics ∪ {'_'} := by
  simp only [isWordChar, Bool.or_eq_true, isAsciiAlphanumeric_iff, beq_iff_eq, Set.mem_union,
    Set.mem_singleton_iff]

lemma isLabelChar_iff {c : Char} : isLabelChar c = true ↔ c ∈ lowerAlphanumerics ∪ {'-'} := by
  simp only [isLabelChar, Bool.or_eq_true, isLowerAlphanumeric_iff, beq_iff_eq, Set.mem_union,
    Set.mem_singleton_iff]

lemma isAsciiBlank_iff {c : Char} : isAsciiBlank c = true ↔ c ∈ spaces := by
  simp only [isAsciiBlank, spaces, Bool.or_eq_true, beq_iff_eq, Bool.and_eq_true, decide_eq_true_eq,
    Set.mem_insert_iff, Set.mem_singleton_iff, ← Char.toNat_inj, Char.reduceToNat]
  omega

/-! ### Names and tags -/

/-- Every character of a text is of a set. -/
def ConsistsOf (chars : Set Char) (s : List Char) : Prop := ∀ c ∈ s, c ∈ chars

lemma all_eq_true_iff_consistsOf {p : Char → Bool} {chars : Set Char}
    (h : ∀ {c}, p c = true ↔ c ∈ chars) (s : List Char) : s.all p = true ↔ ConsistsOf chars s := by
  simp only [List.all_eq_true, h, ConsistsOf]

structure HasLabelForm (s : String) : Prop where
  nonempty : s ≠ ""
  chars : ConsistsOf (lowerAlphanumerics ∪ {'-'}) s.toList
  start : s.toList.head? ≠ some '-'
  stop : s.toList.getLast? ≠ some '-'

def HasJobNameForm (s : String) : Prop :=
  ∃ first rest, s.toList = first :: rest ∧ first ∈ lowerAlphanumerics ∧
    ConsistsOf (lowerAlphanumerics ∪ {'-', '_'}) rest

def HasTagForm (s : String) : Prop :=
  ∃ first rest, s.toList = first :: rest ∧ first ∈ alphanumerics ∪ {'_'} ∧
    ConsistsOf (alphanumerics ∪ {'_', '.', '-'}) rest ∧ rest.length ≤ 127

def HasVariableForm (s : String) : Prop :=
  ∃ first rest, s.toList = first :: rest ∧ first ∈ Set.Icc 'A' 'Z' ∪ {'_'} ∧
    ConsistsOf (Set.Icc 'A' 'Z' ∪ digits ∪ {'_'}) rest

lemma isShellWord_iff {s : String} : isShellWord s = true ↔ ConsistsOf shellChars s.toList :=
  all_eq_true_iff_consistsOf isShellChar_iff _

lemma isLabel_iff {s : String} : isLabel s = true ↔ HasLabelForm s := by
  have hchars : s.toList.all isLabelChar = true ↔
      ConsistsOf (lowerAlphanumerics ∪ {'-'}) s.toList :=
    all_eq_true_iff_consistsOf isLabelChar_iff _
  simp only [isLabel, Bool.and_eq_true, hchars, Bool.not_eq_true', List.isEmpty_eq_false_iff,
    bne_iff_ne]
  constructor
  · rintro ⟨⟨⟨hne, hchars⟩, hstart⟩, hstop⟩
    exact ⟨by simpa using hne, hchars, hstart, hstop⟩
  · rintro ⟨hne, hchars, hstart, hstop⟩
    exact ⟨⟨⟨by simpa using hne, hchars⟩, hstart⟩, hstop⟩

lemma isJobName_iff {s : String} : isJobName s = true ↔ HasJobNameForm s := by
  unfold isJobName HasJobNameForm
  cases s.toList with
  | nil => simp
  | cons first rest =>
    have hrest : (rest.all fun c => isLabelChar c || c == '_') = true ↔
        ConsistsOf (lowerAlphanumerics ∪ {'-', '_'}) rest := by
      refine all_eq_true_iff_consistsOf (fun {c} => ?_) rest
      simp only [Bool.or_eq_true, isLabelChar_iff, beq_iff_eq, Set.mem_union, Set.mem_insert_iff,
        Set.mem_singleton_iff, or_assoc]
    simp [isLowerAlphanumeric_iff, hrest]

lemma isTag_iff {s : String} : isTag s = true ↔ HasTagForm s := by
  unfold isTag HasTagForm
  cases s.toList with
  | nil => simp
  | cons first rest =>
    have hrest : (rest.all fun c => isWordChar c || c == '.' || c == '-') = true ↔
        ConsistsOf (alphanumerics ∪ {'_', '.', '-'}) rest := by
      refine all_eq_true_iff_consistsOf (fun {c} => ?_) rest
      simp only [Bool.or_eq_true, isWordChar_iff, beq_iff_eq, Set.mem_union, Set.mem_insert_iff,
        Set.mem_singleton_iff, or_assoc]
    simp [isWordChar_iff, hrest, and_assoc]

lemma isVariableName_iff {s : String} : isVariableName s = true ↔ HasVariableForm s := by
  unfold isVariableName HasVariableForm
  cases s.toList with
  | nil => simp
  | cons first rest =>
    have hrest : (rest.all fun c => ('A' ≤ c && c ≤ 'Z') || ('0' ≤ c && c ≤ '9') || c == '_') = true ↔
        ConsistsOf (Set.Icc 'A' 'Z' ∪ digits ∪ {'_'}) rest := by
      refine all_eq_true_iff_consistsOf (fun {c} => ?_) rest
      simp only [Bool.or_eq_true, Bool.and_eq_true, decide_eq_true_eq, beq_iff_eq, digits, Set.mem_union,
        Set.mem_Icc, Set.mem_singleton_iff]
    simp only [Bool.and_eq_true, hrest, Bool.or_eq_true, decide_eq_true_eq, beq_iff_eq, Set.mem_union,
      Set.mem_Icc, Set.mem_singleton_iff, List.cons.injEq, and_assoc, exists_and_left, exists_eq_left']

/-! ### Comparisons -/

def operators : List String := ["<", "<=", ">", ">=", "==", "="]

/-- The parts that a comparison with a decimal number is written from. -/
structure Comparison where
  before : List Char
  operator : String
  between : List Char
  negative : Bool
  whole : List Char
  /-- The digits after the point, if there is one. -/
  fraction : Option (List Char)
  after : List Char
  isOperator : operator ∈ operators
  blanks : ∀ s ∈ [before, between, after], ConsistsOf spaces s
  numerals : ∀ s ∈ whole :: fraction.toList, s ≠ [] ∧ ConsistsOf digits s

namespace Comparison

def sign (k : Comparison) : List Char := if k.negative then ['-'] else []

def pointed (k : Comparison) : List Char := k.fraction.elim [] ('.' :: ·)

/-- A comparison as it is written. -/
def written (k : Comparison) : List Char :=
  k.before ++ (k.operator.toList ++ (k.between ++ (k.sign ++ (k.whole ++ (k.pointed ++ k.after)))))

end Comparison

/-- Whether no character of a set stands at the start of a text. -/
def Avoids (chars : Set Char) (s : List Char) : Prop := ∀ c ∈ s.head?, c ∉ chars

section
variable {p : Char → Bool} {chars : Set Char} (h : ∀ {c}, p c = true ↔ c ∈ chars)
include h

lemma dropWhile_of_avoids {front rest : List Char} (hfront : ConsistsOf chars front)
    (hrest : Avoids chars rest) : (front ++ rest).dropWhile p = rest := by
  rw [List.dropWhile_append_of_pos fun c hc => h.mpr (hfront c hc)]
  cases rest with
  | nil => rfl
  | cons c rest => exact List.dropWhile_cons_of_neg fun hc => hrest c rfl (h.mp hc)

lemma exists_dropWhile_eq (s : List Char) : ∃ front, s = front ++ s.dropWhile p ∧
    ConsistsOf chars front ∧ Avoids chars (s.dropWhile p) := by
  refine ⟨s.takeWhile p, List.takeWhile_append_dropWhile.symm, fun c hc => ?_, fun c hc hmem => ?_⟩
  · exact h.mp (List.all_eq_true.mp List.all_takeWhile c hc)
  · have hnot := List.head?_dropWhile_not p s
    rw [Option.mem_def.mp hc] at hnot
    exact absurd (h.mpr hmem) (Bool.eq_false_iff.mp hnot)

end

lemma afterDigits_append {front rest : List Char} (hne : front ≠ []) (hfront : ConsistsOf digits front)
    (hrest : Avoids digits rest) : afterDigits? (front ++ rest) = some rest := by
  cases front with
  | nil => exact absurd rfl hne
  | cons c front =>
    have hc : c.isDigit = true := isDigit_iff.mpr (hfront c List.mem_cons_self)
    rw [List.cons_append, afterDigits?, if_pos hc, dropWhile_of_avoids isDigit_iff
      (fun d hd => hfront d (List.mem_cons_of_mem _ hd)) hrest]

lemma exists_of_afterDigits {s rest : List Char} (h : afterDigits? s = some rest) :
    ∃ front, s = front ++ rest ∧ front ≠ [] ∧ ConsistsOf digits front := by
  cases s with
  | nil => cases h
  | cons c s =>
    rw [afterDigits?] at h
    split at h
    next hc =>
      cases h
      obtain ⟨front, hs, hfront, -⟩ := exists_dropWhile_eq isDigit_iff s
      refine ⟨c :: front, by rw [List.cons_append, ← hs], List.cons_ne_nil _ _, fun d hd => ?_⟩
      rcases List.mem_cons.mp hd with rfl | hd
      · exact isDigit_iff.mp hc
      · exact hfront d hd
    next => cases h

lemma afterOperator_append {op : String} (hop : op ∈ operators) {rest : List Char}
    (hrest : Avoids {'='} rest) : afterOperator? (op.toList ++ rest) = some rest := by
  cases rest with
  | nil =>
    revert op
    decide
  | cons c rest =>
    have hc : c ≠ '=' := hrest c rfl
    simp only [operators, List.mem_cons, List.not_mem_nil, or_false] at hop
    rcases hop with rfl | rfl | rfl | rfl | rfl | rfl <;> simp [afterOperator?, hc]

lemma exists_of_afterOperator {s rest : List Char} (h : afterOperator? s = some rest) :
    ∃ op ∈ operators, s = op.toList ++ rest := by
  unfold afterOperator? at h
  split at h
  all_goals cases h
  exacts [⟨"<=", by decide, rfl⟩, ⟨">=", by decide, rfl⟩, ⟨"==", by decide, rfl⟩,
    ⟨"<", by decide, rfl⟩, ⟨">", by decide, rfl⟩, ⟨"=", by decide, rfl⟩]

lemma notMem_digits {c : Char} (h : c ∈ spaces ∪ {'=', '-', '.'}) : c ∉ digits := by
  rw [← isDigit_iff]
  simp only [spaces, Set.mem_union, Set.mem_insert_iff, Set.mem_singleton_iff] at h
  rcases h with (rfl | rfl | rfl | rfl | rfl | rfl) | rfl | rfl | rfl <;> decide

lemma notMem_spaces {c : Char} (h : c ∈ ['=', '-', '.', '<', '>']) : c ∉ spaces := by
  rw [← isAsciiBlank_iff]
  simp only [List.mem_cons, List.not_mem_nil, or_false] at h
  rcases h with rfl | rfl | rfl | rfl | rfl <;> decide

section
variable {s whole : List Char} (hne : whole ≠ []) (hwhole : ConsistsOf digits whole)
include hne hwhole

lemma afterNumber_whole {rest : List Char}
    (hs : (if s.head? = some '-' then s.drop 1 else s) = whole ++ rest) (hrest : Avoids digits rest)
    (hpoint : Avoids {'.'} rest) : afterNumber? s = some rest := by
  unfold afterNumber?
  rw [hs, afterDigits_append hne hwhole hrest]
  cases rest with
  | nil => rfl
  | cons c rest =>
    have hc : c ≠ '.' := hpoint c rfl
    simp [hc]

lemma afterNumber_fraction {fraction rest : List Char}
    (hs : (if s.head? = some '-' then s.drop 1 else s) = whole ++ '.' :: (fraction ++ rest))
    (hfraction : fraction ≠ []) (hdigits : ConsistsOf digits fraction) (hrest : Avoids digits rest) :
    afterNumber? s = some rest := by
  have hpoint : Avoids digits ('.' :: (fraction ++ rest)) := by
    intro c hc
    cases hc
    exact notMem_digits (by simp)
  unfold afterNumber?
  rw [hs, afterDigits_append hne hwhole hpoint]
  simp only [afterDigits_append hfraction hdigits hrest]
  rfl

end

namespace Comparison

variable (k : Comparison)

lemma avoids_number : Avoids (spaces ∪ {'='}) (k.sign ++ (k.whole ++ (k.pointed ++ k.after))) := by
  obtain ⟨hne, hdigits⟩ := k.numerals k.whole List.mem_cons_self
  intro c hc hmem
  cases hsign : k.negative with
  | true =>
    rw [sign, hsign, if_pos rfl, List.singleton_append, List.head?_cons, Option.mem_some] at hc
    subst hc
    rcases hmem with hspace | heq
    · exact notMem_spaces (by decide) hspace
    · exact absurd heq (by decide)
  | false =>
    obtain ⟨d, whole, hwhole⟩ := List.exists_cons_of_ne_nil hne
    rw [sign, hsign, hwhole, if_neg Bool.false_ne_true, List.nil_append, List.cons_append,
      List.head?_cons, Option.mem_some] at hc
    subst hc
    refine notMem_digits ?_ (hdigits d (hwhole ▸ List.mem_cons_self))
    exact hmem.imp_right fun heq => Or.inl heq

lemma drop_sign : (if (k.sign ++ (k.whole ++ (k.pointed ++ k.after))).head? = some '-' then
    (k.sign ++ (k.whole ++ (k.pointed ++ k.after))).drop 1
      else k.sign ++ (k.whole ++ (k.pointed ++ k.after))) = k.whole ++ (k.pointed ++ k.after) := by
  obtain ⟨hne, hdigits⟩ := k.numerals k.whole List.mem_cons_self
  cases hsign : k.negative with
  | true =>
    rw [sign, hsign]
    rfl
  | false =>
    obtain ⟨d, whole, hwhole⟩ := List.exists_cons_of_ne_nil hne
    have hd : d ≠ '-' := by
      rintro rfl
      exact notMem_digits (by simp) (hdigits '-' (hwhole ▸ List.mem_cons_self))
    rw [sign, hsign, hwhole]
    simp [hd]

lemma afterNumber_written :
    afterNumber? (k.sign ++ (k.whole ++ (k.pointed ++ k.after))) = some k.after := by
  obtain ⟨hne, hdigits⟩ := k.numerals k.whole List.mem_cons_self
  have hafter : ∀ c ∈ k.after.head?, c ∈ spaces :=
    fun c hc => k.blanks k.after (by simp) c (List.mem_of_mem_head? hc)
  have hnumeral : Avoids digits k.after := fun c hc => notMem_digits (Or.inl (hafter c hc))
  have hdropped := k.drop_sign
  cases hfraction : k.fraction with
  | none =>
    have hpointed : k.pointed = [] := by rw [pointed, hfraction]; rfl
    have hpoint : Avoids {'.'} k.after := by
      rintro c hc rfl
      exact notMem_spaces (by decide) (hafter '.' hc)
    rw [hpointed, List.nil_append] at hdropped ⊢
    exact afterNumber_whole hne hdigits hdropped hnumeral hpoint
  | some fraction =>
    obtain ⟨hfractionNe, hfractionDigits⟩ := k.numerals fraction (by simp [hfraction])
    have hpointed : k.pointed = '.' :: fraction := by rw [pointed, hfraction]; rfl
    rw [hpointed] at hdropped ⊢
    exact afterNumber_fraction hne hdigits hdropped hfractionNe hfractionDigits hnumeral

end Comparison

lemma exists_of_afterNumber {s rest : List Char} (h : afterNumber? s = some rest)
    (hrest : ConsistsOf spaces rest) : ∃ (negative : Bool) (whole : List Char)
      (fraction : Option (List Char)), s = (if negative then ['-'] else []) ++ (whole ++
        (fraction.elim [] ('.' :: ·) ++ rest)) ∧
          ∀ n ∈ whole :: fraction.toList, n ≠ [] ∧ ConsistsOf digits n := by
  obtain ⟨negative, hsign⟩ : ∃ negative : Bool, s = (if negative then ['-'] else []) ++
      (if s.head? = some '-' then s.drop 1 else s) := by
    split
    next hminus =>
      obtain ⟨rest, rfl⟩ := List.head?_eq_some_iff.mp hminus
      exact ⟨true, rfl⟩
    next => exact ⟨false, rfl⟩
  unfold afterNumber? at h
  split at h
  next => cases h
  next number hnumber =>
    obtain ⟨whole, hwhole, hne, hdigits⟩ := exists_of_afterDigits hnumber
    rw [hwhole] at hsign
    split at h
    next fraction =>
      cases hfraction : afterDigits? fraction with
      | none =>
        rw [hfraction, Option.orElse_none, Option.some.injEq] at h
        subst h
        exact absurd (hrest '.' List.mem_cons_self) (notMem_spaces (by decide))
      | some behind =>
        rw [hfraction, Option.orElse_some, Option.some.injEq] at h
        subst h
        obtain ⟨ds, rfl, hds, hdsDigits⟩ := exists_of_afterDigits hfraction
        exact ⟨negative, whole, some ds, hsign, by simp [hne, hdigits, hds, hdsDigits]⟩
    next =>
      cases h
      exact ⟨negative, whole, none, hsign, by simp [hne, hdigits]⟩

lemma avoids_spaces_operator {op : String} (hop : op ∈ operators) (rest : List Char) :
    Avoids spaces (op.toList ++ rest) := by
  intro c hc
  refine notMem_spaces ?_
  simp only [operators, List.mem_cons, List.not_mem_nil, or_false] at hop
  rcases hop with rfl | rfl | rfl | rfl | rfl | rfl <;> cases hc <;> decide

namespace Comparison

variable (k : Comparison)

/-- What follows the operator does not make a longer one of it. -/
lemma avoids_operand :
    Avoids {'='} (k.between ++ (k.sign ++ (k.whole ++ (k.pointed ++ k.after)))) := by
  intro c hc heq
  rw [List.head?_append] at hc
  cases hhead : k.between.head? with
  | none =>
    rw [hhead, Option.none_or] at hc
    exact k.avoids_number c hc (Or.inr heq)
  | some d =>
    rw [hhead, Option.some_or, Option.mem_some] at hc
    subst hc
    have hspace : d ∈ spaces := k.blanks k.between (by simp) d (List.mem_of_mem_head? hhead)
    exact notMem_spaces (by rw [heq]; decide) hspace

lemma isComparison_written {s : String} (h : s.toList = k.written) : isComparison s = true := by
  have hnumber : Avoids spaces (k.sign ++ (k.whole ++ (k.pointed ++ k.after))) :=
    fun c hc hmem => k.avoids_number c hc (Or.inl hmem)
  unfold isComparison
  rw [h, written, dropWhile_of_avoids isAsciiBlank_iff (k.blanks _ (by simp))
    (avoids_spaces_operator k.isOperator _), afterOperator_append k.isOperator k.avoids_operand]
  dsimp only
  rw [dropWhile_of_avoids isAsciiBlank_iff (k.blanks _ (by simp)) hnumber, k.afterNumber_written]
  exact (all_eq_true_iff_consistsOf isAsciiBlank_iff _).mpr (k.blanks _ (by simp))

end Comparison

lemma exists_of_isComparison {s : String} (h : isComparison s = true) :
    ∃ k : Comparison, s.toList = k.written := by
  obtain ⟨before, hs, hbefore, -⟩ := exists_dropWhile_eq isAsciiBlank_iff s.toList
  unfold isComparison at h
  split at h
  next => cases h
  next rest hop =>
    obtain ⟨op, hop, hrest⟩ := exists_of_afterOperator hop
    obtain ⟨between, hbetween, hblank, -⟩ := exists_dropWhile_eq isAsciiBlank_iff rest
    split at h
    next => cases h
    next after hnumber =>
      have hafter : ConsistsOf spaces after :=
        (all_eq_true_iff_consistsOf isAsciiBlank_iff after).mp h
      obtain ⟨negative, whole, fraction, hnumber, hnumerals⟩ :=
        exists_of_afterNumber hnumber hafter
      refine ⟨⟨before, op, between, negative, whole, fraction, after, hop, ?_, hnumerals⟩, ?_⟩
      · simp [hbefore, hblank, hafter]
      · rw [hs, hrest, hbetween, hnumber]
        rfl

/-- A text is a comparison exactly if it is written from the parts of one. -/
lemma isComparison_iff {s : String} :
    isComparison s = true ↔ ∃ k : Comparison, s.toList = k.written :=
  ⟨exists_of_isComparison, fun ⟨k, hk⟩ => k.isComparison_written hk⟩

end WorkflowOperator.Text
