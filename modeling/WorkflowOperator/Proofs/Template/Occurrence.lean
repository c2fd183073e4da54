import Mathlib.Data.List.TakeWhile
import Mathlib.Tactic.Lemma
import WorkflowOperator.Template.Basic

/-!
# Occurrences of placeholders

A placeholder may be written with white space around its name or without. Its opening braces cannot
stand inside of another one, so the places at which placeholders occur in a text never overlap, and
reading the text from the left finds them all.
-/

namespace WorkflowOperator.Template

open Text

/-! ### Written placeholders -/

/-- Whether a text can be the name of a placeholder. -/
def isSlotName (name : String) : Bool :=
  match name.toList with
  | [] => false
  | c :: rest => isIdentifierStart c && rest.all isWordChar

lemma isWordChar_of_isIdentifierStart {c : Char} (h : isIdentifierStart c = true) :
    isWordChar c = true := by
  unfold isIdentifierStart at h
  unfold isWordChar isAsciiAlphanumeric
  grind

lemma isAsciiBlank_of_isWordChar {c : Char} (h : isWordChar c = true) : isAsciiBlank c = false := by
  by_contra hblank
  rw [Bool.not_eq_false, isAsciiBlank, Bool.or_eq_true, beq_iff_eq, Bool.and_eq_true,
    decide_eq_true_eq, decide_eq_true_eq] at hblank
  have hlt : c.toNat < 0x21 := by omega
  obtain ⟨n, hn, rfl⟩ : ∃ n, n < 0x21 ∧ c = Char.ofNat n :=
    ⟨c.toNat, hlt, (Char.ofNat_toNat c).symm⟩
  have hnone : ∀ n < 0x21, isWordChar (Char.ofNat n) = false := by decide
  rw [hnone n hn] at h
  cases h

lemma isSlotName_iff {name : String} : isSlotName name = true ↔
    ∃ c more, name.toList = c :: more ∧ isIdentifierStart c = true ∧
      ∀ d ∈ more, isWordChar d = true := by
  unfold isSlotName
  cases name.toList with
  | nil => simp
  | cons c more =>
    simp only [Bool.and_eq_true, List.all_eq_true, List.cons.injEq]
    constructor
    · intro h
      exact ⟨c, more, ⟨rfl, rfl⟩, h⟩
    · rintro ⟨_, _, ⟨rfl, rfl⟩, h⟩
      exact h

/-- How a placeholder of a name may be written: two opening braces, the name and two closing braces,
with white space around the name or without. -/
def Spells (name : String) (written : List Char) : Prop :=
  isSlotName name = true ∧ ∃ left right : List Char,
    (∀ c ∈ left, isAsciiBlank c = true) ∧ (∀ c ∈ right, isAsciiBlank c = true) ∧
      written = ['{', '{'] ++ left ++ name.toList ++ right ++ ['}', '}']

lemma spells_slot {name : String} (h : isSlotName name = true) : Spells name (slot name).toList := by
  have hblank : ∀ c ∈ [' '], isAsciiBlank c = true := List.forall_mem_singleton.mpr (by decide)
  exact ⟨h, [' '], [' '], hblank, hblank, by simp [slot]⟩

lemma Spells.exists_inner {name : String} {written : List Char} (h : Spells name written) :
    ∃ c inner, written = '{' :: '{' :: c :: inner ∧ '{' ∉ c :: inner := by
  obtain ⟨hname, left, right, hleft, hright, rfl⟩ := h
  obtain ⟨d, more, hcons, hstart, hmore⟩ := isSlotName_iff.mp hname
  have hnotBlank : ∀ {l : List Char}, (∀ c ∈ l, isAsciiBlank c = true) → '{' ∉ l :=
    fun hl hmem => absurd (hl _ hmem) (by decide)
  have hnotWord : '{' ∉ name.toList := by
    rw [hcons, List.mem_cons, not_or]
    constructor
    · rintro rfl
      exact absurd hstart (by decide)
    · exact fun hmem => absurd (hmore _ hmem) (by decide)
  have hinner : '{' ∉ left ++ name.toList ++ right ++ ['}', '}'] := by
    simp [hnotBlank hleft, hnotBlank hright, hnotWord]
  obtain ⟨c, inner, heq⟩ := List.exists_cons_of_ne_nil
    (l := left ++ name.toList ++ right ++ ['}', '}']) (by simp)
  refine ⟨c, inner, ?_, heq ▸ hinner⟩
  simp only [List.cons_append, List.nil_append, ← heq, List.append_assoc]

/-! ### Reading a placeholder -/

lemma readPlaceholder_of_ne {c : Char} (h : c ≠ '{') (rest : List Char) :
    readPlaceholder? (c :: rest) = none := by
  unfold readPlaceholder?
  split
  · rename_i heq
    cases heq
    exact absurd rfl h
  · rfl

lemma readPlaceholder_spelled {name : String} {written : List Char} (h : Spells name written)
    (rest : List Char) : readPlaceholder? (written ++ rest) = some (name.toList, rest) := by
  obtain ⟨hname, left, right, hleft, hright, rfl⟩ := h
  obtain ⟨c, more, hcons, hstart, hmore⟩ := isSlotName_iff.mp hname
  have hc : isAsciiBlank c = false := isAsciiBlank_of_isWordChar (isWordChar_of_isIdentifierStart hstart)
  -- the white space after the name does not go on with the name, nor do the closing braces
  have hstop : ∀ tail : List Char,
      (right ++ '}' :: '}' :: tail).takeWhile isWordChar = [] ∧
        (right ++ '}' :: '}' :: tail).dropWhile isWordChar = right ++ '}' :: '}' :: tail := by
    intro tail
    cases right with
    | nil =>
      have hbrace : isWordChar '}' = false := by decide
      simp [hbrace]
    | cons d right =>
      have hd : isWordChar d = false := by
        by_contra hword
        have hblank := isAsciiBlank_of_isWordChar (Bool.not_eq_false _ ▸ hword)
        rw [hright d List.mem_cons_self] at hblank
        cases hblank
      simp [hd]
  have htext : ['{', '{'] ++ left ++ name.toList ++ right ++ ['}', '}'] ++ rest =
      '{' :: '{' :: (left ++ c :: (more ++ (right ++ '}' :: '}' :: rest))) := by
    simp [hcons]
  have hskip : (left ++ c :: (more ++ (right ++ '}' :: '}' :: rest))).dropWhile isAsciiBlank =
      c :: (more ++ (right ++ '}' :: '}' :: rest)) := by
    rw [List.dropWhile_append_of_pos hleft, List.dropWhile_cons_of_neg (by simp [hc])]
  have htake : (more ++ (right ++ '}' :: '}' :: rest)).takeWhile isWordChar = more := by
    rw [List.takeWhile_append_of_pos hmore, (hstop rest).1, List.append_nil]
  have hdrop : ((more ++ (right ++ '}' :: '}' :: rest)).dropWhile isWordChar).dropWhile
      isAsciiBlank = '}' :: '}' :: rest := by
    rw [List.dropWhile_append_of_pos hmore, (hstop rest).2, List.dropWhile_append_of_pos hright,
      List.dropWhile_cons_of_neg (by decide)]
  rw [htext, readPlaceholder?, hskip]
  simp only [hstart, if_true, hdrop, htake, hcons]

lemma spelled_of_readPlaceholder {s name rest : List Char}
    (h : readPlaceholder? s = some (name, rest)) :
    ∃ written, Spells (String.ofList name) written ∧ s = written ++ rest := by
  have hall : ∀ (p : Char → Bool) (l : List Char), ∀ c ∈ l.takeWhile p, p c = true :=
    fun p l c hc => List.mem_takeWhile_imp hc
  unfold readPlaceholder? at h
  split at h
  next inner =>
    split at h
    next => cases h
    next c more hskip =>
      split at h
      next hstart =>
        split at h
        next tail hdrop =>
          simp only [Option.some.injEq, Prod.mk.injEq] at h
          obtain ⟨rfl, rfl⟩ := h
          refine ⟨['{', '{'] ++ inner.takeWhile isAsciiBlank ++ (c :: more.takeWhile isWordChar) ++
            (more.dropWhile isWordChar).takeWhile isAsciiBlank ++ ['}', '}'], ⟨?_, ?_⟩, ?_⟩
          · rw [isSlotName_iff]
            exact ⟨c, more.takeWhile isWordChar, by simp, hstart, hall _ _⟩
          · exact ⟨inner.takeWhile isAsciiBlank, (more.dropWhile isWordChar).takeWhile isAsciiBlank,
              hall _ _, hall _ _, by simp⟩
          · have hinner := List.takeWhile_append_dropWhile (p := isAsciiBlank) (l := inner)
            have hmore := List.takeWhile_append_dropWhile (p := isWordChar) (l := more)
            have hright := List.takeWhile_append_dropWhile (p := isAsciiBlank)
              (l := more.dropWhile isWordChar)
            rw [hskip] at hinner
            rw [hdrop] at hright
            simp only [List.cons_append, List.nil_append, List.append_assoc, hright, hmore, hinner]
        next => cases h
      next => cases h
  next => cases h

/-- A text starts with no placeholder. -/
def StartsPlain (s : List Char) : Prop :=
  ∀ name written rest, Spells name written → s ≠ written ++ rest

lemma readPlaceholder_eq_none_iff {s : List Char} : readPlaceholder? s = none ↔ StartsPlain s := by
  constructor
  · rintro hnone name written rest hspells rfl
    rw [readPlaceholder_spelled hspells] at hnone
    cases hnone
  · intro hplain
    cases hread : readPlaceholder? s with
    | none => rfl
    | some read =>
      obtain ⟨written, hspells, heq⟩ := spelled_of_readPlaceholder hread
      exact absurd heq (hplain _ _ _ hspells)

lemma pieces_spelled {name : String} {written : List Char} (h : Spells name written)
    (rest : List Char) : pieces (written ++ rest) = .placeholder name :: pieces rest := by
  have hread := readPlaceholder_spelled h rest
  obtain ⟨c, inner, hcons, -⟩ := h.exists_inner
  rw [hcons, List.cons_append] at hread ⊢
  rw [pieces]
  split
  · rename_i name' rest' heq
    rw [hread, Option.some.injEq, Prod.mk.injEq] at heq
    rw [← heq.1, ← heq.2, String.ofList_toList]
  · rename_i heq
    rw [hread] at heq
    cases heq

lemma pieces_plain {c : Char} {rest : List Char} (h : StartsPlain (c :: rest)) :
    pieces (c :: rest) = .char c :: pieces rest := by
  rw [← readPlaceholder_eq_none_iff] at h
  rw [pieces]
  split
  · rename_i name after heq
    rw [h] at heq
    cases heq
  · rfl

/-- Induction along the reading of a text from the left. -/
@[elab_as_elim]
theorem readFromLeft {motive : List Char → Prop} (nil : motive [])
    (placeholder : ∀ name written rest, Spells name written → motive rest →
      motive (written ++ rest))
    (char : ∀ c rest, StartsPlain (c :: rest) → motive rest → motive (c :: rest))
    (s : List Char) : motive s := by
  induction s using pieces.induct with
  | case1 => exact nil
  | case2 c r name rest hread ih =>
    obtain ⟨written, hspells, heq⟩ := spelled_of_readPlaceholder hread
    rw [heq]
    exact placeholder _ _ _ hspells ih
  | case3 c r hread ih => exact char c r (readPlaceholder_eq_none_iff.mp hread) ih

/-! ### Occurrences -/

/-- A placeholder of a name stands in a text from the place `start` up to the place `stop`. -/
def OccursAt (s : List Char) (name : String) (start stop : Nat) : Prop :=
  ∃ front written back, s = front ++ (written ++ back) ∧ Spells name written ∧
    start = front.length ∧ stop = start + written.length

/-- A placeholder in a text that starts with a placeholder is this one or comes after it. -/
lemma Spells.same_or_after {name name' : String} {written written' rest front back : List Char}
    (h : Spells name written) (h' : Spells name' written')
    (heq : written ++ rest = front ++ (written' ++ back)) :
    (front = [] ∧ name = name' ∧ written = written') ∨
      ∃ front', front = written ++ front' ∧ rest = front' ++ (written' ++ back) := by
  cases front with
  | nil =>
    left
    have hread := readPlaceholder_spelled h rest
    rw [heq, List.nil_append, readPlaceholder_spelled h', Option.some.injEq, Prod.mk.injEq] at hread
    obtain ⟨hname, rfl⟩ := hread
    exact ⟨rfl, (String.toList_inj.mp hname).symm, List.append_cancel_right heq⟩
  | cons d front =>
    right
    obtain ⟨c, inner, hcons, hinner⟩ := h.exists_inner
    obtain ⟨c', inner', hcons', -⟩ := h'.exists_inner
    rcases List.append_eq_append_iff.mp heq with ⟨front', hfront, hrest⟩ | ⟨left, hwritten, hleft⟩
    · exact ⟨front', hfront, hrest⟩
    -- what is left of the first placeholder would have to start with two opening braces
    · cases left with
      | nil => exact ⟨[], by simpa using hwritten.symm, by simpa using hleft.symm⟩
      | cons e left =>
        exfalso
        simp only [hcons', List.cons_append, List.cons.injEq] at hleft
        simp only [hcons, List.cons_append, List.cons.injEq] at hwritten
        obtain ⟨rfl, hleft⟩ := hleft
        cases front with
        | nil =>
          simp only [List.nil_append, List.cons.injEq] at hwritten
          rw [← hwritten.2.2, List.cons_append, List.cons.injEq] at hleft
          exact hinner (hleft.1 ▸ List.mem_cons_self)
        | cons f front =>
          simp only [List.cons_append, List.cons.injEq] at hwritten
          rw [hwritten.2.2] at hinner
          exact hinner (List.mem_append_right _ List.mem_cons_self)

lemma Spells.length_pos {name : String} {written : List Char} (h : Spells name written) :
    0 < written.length := by
  obtain ⟨c, inner, rfl, -⟩ := h.exists_inner
  simp

lemma OccursAt.lt {s : List Char} {name : String} {start stop : Nat}
    (h : OccursAt s name start stop) : start < stop := by
  obtain ⟨front, written, back, -, hspells, -, rfl⟩ := h
  have hpos := hspells.length_pos
  omega

lemma not_occursAt_nil {name : String} {start stop : Nat} : ¬ OccursAt [] name start stop := by
  rintro ⟨front, written, back, heq, hspells, -, -⟩
  have hpos := hspells.length_pos
  have hlength := congrArg List.length heq
  simp only [List.length_nil, List.length_append] at hlength
  omega

lemma Spells.occursAt {name : String} {written : List Char} (h : Spells name written)
    (rest : List Char) : OccursAt (written ++ rest) name 0 written.length :=
  ⟨[], written, rest, rfl, h, rfl, (Nat.zero_add _).symm⟩

lemma occursAt_append_iff {front rest : List Char} {name : String} {start stop : Nat} :
    OccursAt (front ++ rest) name (front.length + start) (front.length + stop) ↔
      OccursAt rest name start stop := by
  constructor
  · rintro ⟨front', written, back, heq, hspells, hstart, hstop⟩
    rcases List.append_eq_append_iff.mp heq with ⟨between, rfl, rfl⟩ | ⟨between, rfl, hback⟩
    · rw [List.length_append] at hstart
      exact ⟨between, written, back, rfl, hspells, by omega, by omega⟩
    · rw [List.length_append] at hstart
      obtain rfl : between = [] := List.length_eq_zero_iff.mp (by omega)
      rw [List.append_nil] at hstop
      rw [List.length_nil] at hstart
      exact ⟨[], written, back, hback.symm, hspells, by simp; omega, by omega⟩
  · rintro ⟨front', written, back, rfl, hspells, rfl, rfl⟩
    exact ⟨front ++ front', written, back, by simp, hspells, by simp, by omega⟩

lemma OccursAt.of_append {front rest : List Char} {name : String} {start stop : Nat}
    (h : OccursAt (front ++ rest) name (front.length + start) stop) :
    ∃ stop', stop = front.length + stop' ∧ OccursAt rest name start stop' := by
  have hlt := h.lt
  obtain ⟨stop', rfl⟩ := Nat.exists_eq_add_of_le (show front.length ≤ stop by omega)
  exact ⟨stop', rfl, occursAt_append_iff.mp h⟩

lemma OccursAt.le_of_lt {s : List Char} {name name' : String} {start stop start' stop' : Nat}
    (h : OccursAt s name start stop) (h' : OccursAt s name' start' stop') (hlt : start < start') :
    stop ≤ start' := by
  obtain ⟨front, written, back, rfl, hspells, rfl, rfl⟩ := h
  obtain ⟨front', written', back', heq, hspells', rfl, rfl⟩ := h'
  rcases List.append_eq_append_iff.mp heq with ⟨between, rfl, hafter⟩ | ⟨between, rfl, -⟩
  · rcases hspells.same_or_after hspells' hafter with ⟨rfl, -, -⟩ | ⟨front', rfl, -⟩
    · simp at hlt
    · simp only [List.length_append]
      omega
  · simp only [List.length_append] at hlt
    omega

/-- Occurrences never overlap. -/
lemma OccursAt.eq_or_apart {s : List Char} {name name' : String} {start stop start' stop' : Nat}
    (h : OccursAt s name start stop) (h' : OccursAt s name' start' stop') :
    (name = name' ∧ start = start' ∧ stop = stop') ∨ stop ≤ start' ∨ stop' ≤ start := by
  rcases Nat.lt_trichotomy start start' with hlt | rfl | hlt
  · exact Or.inr (Or.inl (h.le_of_lt h' hlt))
  · left
    obtain ⟨front, written, back, rfl, hspells, rfl, rfl⟩ := h
    obtain ⟨front', written', back', heq, hspells', hfront, rfl⟩ := h'
    obtain ⟨-, hafter⟩ := List.append_inj heq hfront
    have hcut : written ++ back = [] ++ (written' ++ back') := hafter
    rcases hspells.same_or_after hspells' hcut with ⟨-, rfl, rfl⟩ | ⟨front', hnil, -⟩
    · exact ⟨rfl, rfl, rfl⟩
    · have hpos := hspells.length_pos
      have hlength := congrArg List.length hnil
      simp only [List.length_nil, List.length_append] at hlength
      omega
  · exact Or.inr (Or.inr (h'.le_of_lt h hlt))

/-- No occurrence goes across the place between two texts. -/
def IsCut (front rest : List Char) : Prop :=
  ∀ name start stop, OccursAt (front ++ rest) name start stop →
    stop ≤ front.length ∨ front.length ≤ start

lemma IsCut.occursAt_cases {front rest : List Char} (hcut : IsCut front rest) {name : String}
    {start stop : Nat} (h : OccursAt (front ++ rest) name start stop) : stop ≤ front.length ∨
      ∃ start' stop', start = front.length + start' ∧ stop = front.length + stop' ∧
        OccursAt rest name start' stop' := by
  refine (hcut _ _ _ h).imp_right fun hafter => ?_
  obtain ⟨start', rfl⟩ := Nat.exists_eq_add_of_le hafter
  obtain ⟨stop', rfl, hrest⟩ := h.of_append
  exact ⟨start', stop', rfl, rfl, hrest⟩

lemma isCut_spelled {name : String} {written : List Char} (h : Spells name written)
    (rest : List Char) : IsCut written rest := by
  intro name' start stop hoccurs
  rcases (h.occursAt rest).eq_or_apart hoccurs with ⟨-, -, rfl⟩ | hapart | hapart
  · exact Or.inl (Nat.le_refl _)
  · exact Or.inr hapart
  · have hlt := hoccurs.lt
    omega

lemma OccursAt.start_ne_zero {c : Char} {rest : List Char} {name : String} {start stop : Nat}
    (h : OccursAt (c :: rest) name start stop) (hplain : StartsPlain (c :: rest)) : start ≠ 0 := by
  obtain ⟨front, written, back, heq, hspells, rfl, -⟩ := h
  intro hzero
  rw [List.length_eq_zero_iff] at hzero
  subst hzero
  exact hplain name written back hspells heq

lemma isCut_plain {c : Char} {rest : List Char} (h : StartsPlain (c :: rest)) : IsCut [c] rest := by
  intro name start stop hoccurs
  have hne := OccursAt.start_ne_zero hoccurs h
  rw [List.length_singleton]
  omega

lemma occursAt_of_isCut {front rest : List Char} (hcut : IsCut front rest) (name : String) :
    (∃ start stop, OccursAt (front ++ rest) name start stop) ↔
      (∃ start stop, stop ≤ front.length ∧ OccursAt (front ++ rest) name start stop) ∨
        ∃ start stop, OccursAt rest name start stop := by
  constructor
  · rintro ⟨start, stop, hoccurs⟩
    rcases hcut.occursAt_cases hoccurs with hstop | ⟨start, stop, -, -, hrest⟩
    · exact Or.inl ⟨_, _, hstop, hoccurs⟩
    · exact Or.inr ⟨start, stop, hrest⟩
  · rintro (⟨start, stop, -, hoccurs⟩ | ⟨start, stop, hoccurs⟩)
    · exact ⟨start, stop, hoccurs⟩
    · exact ⟨_, _, occursAt_append_iff.mpr hoccurs⟩

/-- Reading a text from the left finds the names of all occurrences. -/
lemma mem_placeholderNames_iff {s : List Char} {name : String} :
    name ∈ placeholderNames s ↔ ∃ start stop, OccursAt s name start stop := by
  induction s using readFromLeft with
  | nil => simp [placeholderNames, pieces, not_occursAt_nil]
  | placeholder name' written rest hspells ih =>
    have hnames : placeholderNames (written ++ rest) = name' :: placeholderNames rest := by
      rw [placeholderNames, pieces_spelled hspells]
      rfl
    rw [hnames, List.mem_cons, ih, occursAt_of_isCut (isCut_spelled hspells rest) name]
    refine or_congr_left ⟨?_, ?_⟩
    · rintro rfl
      exact ⟨0, written.length, Nat.le_refl _, hspells.occursAt rest⟩
    · rintro ⟨start, stop, hstop, hoccurs⟩
      have hlt := hoccurs.lt
      rcases hoccurs.eq_or_apart (hspells.occursAt rest) with ⟨hname, -, -⟩ | hapart | hapart
      · exact hname
      · omega
      · omega
  | char c rest hplain ih =>
    have hnames : placeholderNames (c :: rest) = placeholderNames rest := by
      rw [placeholderNames, pieces_plain hplain]
      rfl
    have hbefore : ¬ ∃ start stop, stop ≤ [c].length ∧ OccursAt ([c] ++ rest) name start stop := by
      rintro ⟨start, stop, hstop, hoccurs⟩
      have hne := OccursAt.start_ne_zero hoccurs hplain
      have hlt := hoccurs.lt
      rw [List.length_singleton] at hstop
      omega
    rw [hnames, ih]
    exact ((occursAt_of_isCut (isCut_plain hplain) name).trans (or_iff_right hbefore)).symm

end WorkflowOperator.Template
