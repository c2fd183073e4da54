import Mathlib.Data.List.Chain
import WorkflowOperator.Job.Document
import WorkflowOperator.Proofs.Yaml.Quoting

/-!
# Indented texts as literal blocks

A text whose lines are indented is read as a literal block. Lines are indented after line feeds only,
but YAML ends a line at four more characters. What the block is read as can be told character by
character: it is the text itself exactly if the text has neither a carriage return nor a next line
character and each of its separators is followed by a further separator or a line feed.
-/

namespace WorkflowOperator.Yaml

open Text

/-- A text with two blanks in front of every line that is not empty; the flag says whether the text
starts a line. -/
def indented : Bool → List Char → List Char
  | _, [] => []
  | start, c :: rest =>
    if start && c != '\n' then ' ' :: ' ' :: c :: indented (c == '\n') rest
    else c :: indented (c == '\n') rest

lemma indented_newline (start : Bool) (rest : List Char) :
    indented start ('\n' :: rest) = '\n' :: indented true rest := by
  simp [indented]

lemma indented_true_cons {c : Char} (h : c ≠ '\n') (rest : List Char) :
    indented true (c :: rest) = ' ' :: ' ' :: c :: indented false rest := by
  simp [indented, beq_false_of_ne h, h]

lemma indented_false_cons {c : Char} (h : c ≠ '\n') (rest : List Char) :
    indented false (c :: rest) = c :: indented false rest := by
  simp [indented, beq_false_of_ne h]

lemma joinLines_indent (s : List Char) :
    (∀ first more, splitLines s = first :: more →
      indented false s = joinLines (first :: more.map (indentLine [' ', ' ']))) ∧
    indented true s = joinLines ((splitLines s).map (indentLine [' ', ' '])) := by
  induction s with
  | nil =>
    refine ⟨?_, rfl⟩
    intro first more h
    rw [splitLines, parts, List.cons.injEq] at h
    obtain ⟨rfl, rfl⟩ := h
    rfl
  | cons c rest ih =>
    obtain ⟨hfalse, htrue⟩ := ih
    have hne : (splitLines rest).map (indentLine [' ', ' ']) ≠ [] := by
      rw [Ne, List.map_eq_nil_iff]
      exact parts_ne_nil '\n' rest
    by_cases hc : c = '\n'
    · subst hc
      have hsplit : splitLines ('\n' :: rest) = [] :: splitLines rest := by simp [splitLines, parts]
      have hjoin : joinLines ([] :: (splitLines rest).map (indentLine [' ', ' '])) =
          '\n' :: indented true rest := by
        rw [joinLines, joinParts_cons hne, htrue]
        rfl
      refine ⟨?_, ?_⟩
      · intro first more h
        rw [hsplit, List.cons.injEq] at h
        obtain ⟨rfl, rfl⟩ := h
        rw [hjoin, indented_newline]
      · rw [hsplit, List.map_cons, indented_newline]
        exact hjoin.symm
    · obtain ⟨first, more, hrest⟩ := List.exists_cons_of_ne_nil (parts_ne_nil '\n' rest)
      have hsplit : splitLines (c :: rest) = (c :: first) :: more := by
        rw [splitLines, parts, if_neg hc, hrest]
      have hjoin : ∀ front : List Char, joinLines ((front ++ c :: first) ::
          more.map (indentLine [' ', ' '])) = front ++ c :: indented false rest := by
        intro front
        rw [hfalse first more hrest]
        cases more with
        | nil => rfl
        | cons line more => simp [joinLines, joinParts]
      refine ⟨?_, ?_⟩
      · intro first' more' h
        rw [hsplit, List.cons.injEq] at h
        obtain ⟨rfl, rfl⟩ := h
        rw [indented_false_cons hc]
        exact (hjoin []).symm
      · rw [hsplit, List.map_cons, indented_true_cons hc]
        exact (hjoin [' ', ' ']).symm

lemma toList_reindent (s : String) : (reindent blockIndent s).toList = indented true s.toList := by
  rw [reindent, String.toList_ofList, (joinLines_indent s.toList).2]
  rfl

lemma indented_append_newline (start : Bool) (s : List Char) :
    indented start (s ++ ['\n']) = indented start s ++ ['\n'] := by
  induction s generalizing start with
  | nil => simp [indented]
  | cons c rest ih =>
    rw [List.cons_append, indented, indented, ih]
    split <;> rfl

lemma getLast?_indented (start : Bool) (s : List Char) :
    (indented start s).getLast? = s.getLast? := by
  induction s generalizing start with
  | nil => rfl
  | cons c rest ih =>
    have hlast : (c :: indented (c == '\n') rest).getLast? = (c :: rest).getLast? := by
      rw [List.getLast?_cons, List.getLast?_cons, ih]
    rw [indented]
    split
    · rw [List.getLast?_cons_cons, List.getLast?_cons_cons, hlast]
    · exact hlast

/-! ### What a block is read as -/

/-- Where a reader of an indented text is: after a line feed or at the start, after a separator and so
many further blanks, or inside a line. -/
inductive BlockState
  | fresh
  | raw (column : Nat)
  | line
deriving DecidableEq

/-- What a literal block is read as that holds an indented text. After a separator up to two blanks are
taken for indentation, and the block ends where they are missing. -/
def unindented : BlockState → List Char → List Char
  | _, [] => []
  | state, c :: rest =>
    if c = '\n' then c :: unindented .fresh rest
    else if isSeparator c then c :: unindented (.raw 0) rest
    else
      match state with
      | .raw n =>
        if 2 ≤ n then c :: unindented .line rest
        else if c = ' ' then unindented (.raw (n + 1)) rest
        else []
      | _ => c :: unindented .line rest

lemma unindented_newline (state : BlockState) (rest : List Char) :
    unindented state ('\n' :: rest) = '\n' :: unindented .fresh rest := by
  cases state <;> simp [unindented]

lemma unindented_separator {c : Char} (h : isSeparator c = true) (state : BlockState)
    (rest : List Char) : unindented state (c :: rest) = c :: unindented (.raw 0) rest := by
  have hn : c ≠ '\n' := ne_newline_of_separator h
  cases state <;> simp [unindented, hn, h]

lemma unindented_raw {c : Char} (hn : c ≠ '\n') (h : isSeparator c = false) (n : Nat)
    (rest : List Char) : unindented (.raw n) (c :: rest) =
      if 2 ≤ n then c :: unindented .line rest
      else if c = ' ' then unindented (.raw (n + 1)) rest
      else [] := by
  simp [unindented, hn, h]

lemma unindented_word {c : Char} (hn : c ≠ '\n') (h : isSeparator c = false) {state : BlockState}
    (hstate : ∀ n, state ≠ .raw n) (rest : List Char) :
    unindented state (c :: rest) = c :: unindented .line rest := by
  cases state with
  | raw n => exact absurd rfl (hstate n)
  | fresh => simp [unindented, hn, h]
  | line => simp [unindented, hn, h]

/-- Whether a character may follow another in a text that a literal block keeps. -/
def MayFollow (a b : Char) : Prop := isSeparator a = true → b = '\n' ∨ isSeparator b = true

instance : DecidableRel MayFollow := fun _ _ => inferInstanceAs (Decidable (_ → _))

def KeptByBlock (s : List Char) : Prop :=
  '\r' ∉ s ∧ '\u0085' ∉ s ∧ s.IsChain MayFollow ∧ ∀ c ∈ s.getLast?, isSeparator c = false

instance : DecidablePred KeptByBlock := fun s =>
  decidable_of_iff ('\r' ∉ s ∧ '\u0085' ∉ s ∧ s.IsChain MayFollow ∧
    (s.getLast?.all fun c => !isSeparator c) = true) (by
      rw [KeptByBlock]
      cases s.getLast? <;> simp)

lemma KeptByBlock.chain_newline {s : List Char} (h : KeptByBlock s) :
    ('\n' :: s).IsChain MayFollow := by
  refine h.2.2.1.cons fun c _ hsep => ?_
  exact absurd hsep (by decide)

lemma KeptByBlock.chain_append_newline {s : List Char} (h : KeptByBlock s) :
    ('\n' :: (s ++ ['\n'])).IsChain MayFollow := by
  rw [← List.cons_append, List.isChain_append]
  refine ⟨h.chain_newline, List.isChain_singleton _, ?_⟩
  intro c _ d hd _
  rw [List.head?_singleton, Option.mem_def, Option.some.injEq] at hd
  exact Or.inl hd.symm

lemma length_unindented_le (state : BlockState) (s : List Char) :
    (unindented state s).length ≤ s.length := by
  induction s generalizing state with
  | nil => simp [unindented]
  | cons c rest ih =>
    have hfresh := ih .fresh
    have hline := ih .line
    by_cases hn : c = '\n'
    · rw [hn, unindented_newline, List.length_cons, List.length_cons]
      omega
    · cases hsep : isSeparator c with
      | true =>
        have hraw := ih (.raw 0)
        rw [unindented_separator hsep, List.length_cons, List.length_cons]
        omega
      | false =>
        cases state with
        | raw n =>
          have hraw := ih (.raw (n + 1))
          rw [unindented_raw hn hsep, List.length_cons]
          split
          · rw [List.length_cons]
            omega
          · split
            · omega
            · simp
        | fresh =>
          rw [unindented_word hn hsep (by simp), List.length_cons, List.length_cons]
          omega
        | line =>
          rw [unindented_word hn hsep (by simp), List.length_cons, List.length_cons]
          omega

def BlockState.last : BlockState → Char
  | .fresh => '\n'
  | .raw _ => '\u2028'
  | .line => 'a'

lemma isChain_cons_iff_of_last {a b : Char} (h : isSeparator a = isSeparator b) (s : List Char) :
    (a :: s).IsChain MayFollow ↔ (b :: s).IsChain MayFollow := by
  cases s with
  | nil => simp
  | cons c rest => simp [List.isChain_cons_cons, MayFollow, h]

/-- A word at the edge of the text loses its first characters to the indentation. -/
lemma unindented_raw_zero_ne {c : Char} (hn : c ≠ '\n') (hsep : isSeparator c = false)
    (rest : List Char) : unindented (.raw 0) (c :: rest) ≠ c :: rest := by
  have hbound := length_unindented_le (.raw (0 + 1)) rest
  rw [unindented_raw hn hsep, if_neg (by decide)]
  intro h
  have hlen := congrArg List.length h
  rw [List.length_cons] at hlen
  split at hlen
  · omega
  · simp at hlen

lemma unindented_eq_iff {state : BlockState} (hstate : ∀ n, state = .raw n → n = 0) (s : List Char) :
    unindented state s = s ↔ (state.last :: s).IsChain MayFollow := by
  induction s generalizing state with
  | nil => simp [unindented]
  | cons c rest ih =>
    rw [List.isChain_cons_cons]
    by_cases hn : c = '\n'
    · have hnext : unindented .fresh rest = rest ↔ ('\n' :: rest).IsChain MayFollow := ih (by simp)
      rw [hn, unindented_newline, List.cons.injEq, hnext]
      simp [MayFollow, BlockState.last]
    · cases hsep : isSeparator c with
      | true =>
        have hnext : unindented (.raw 0) rest = rest ↔ ('\u2028' :: rest).IsChain MayFollow :=
          ih (by simp)
        have hchain := isChain_cons_iff_of_last (a := '\u2028') (b := c) hsep.symm rest
        rw [unindented_separator hsep, List.cons.injEq, hnext]
        simp [MayFollow, hsep, BlockState.last, hchain]
      | false =>
        have hnext : unindented .line rest = rest ↔ ('a' :: rest).IsChain MayFollow := ih (by simp)
        have hchain := isChain_cons_iff_of_last (a := 'a') (b := c) hsep.symm rest
        cases state with
        | fresh =>
          have hl : isSeparator '\n' = false := by decide
          rw [unindented_word hn hsep (by simp), List.cons.injEq, hnext]
          simp [MayFollow, BlockState.last, hchain, hl]
        | line =>
          have hl : isSeparator 'a' = false := by decide
          rw [unindented_word hn hsep (by simp), List.cons.injEq, hnext]
          simp [MayFollow, BlockState.last, hchain, hl]
        | raw n =>
          obtain rfl := hstate n rfl
          have hl : isSeparator '\u2028' = true := by decide
          simp [MayFollow, BlockState.last, hn, hsep, hl, unindented_raw_zero_ne hn hsep rest]

lemma unindented_fresh_eq_iff (s : List Char) :
    unindented .fresh s = s ↔ ('\n' :: s).IsChain MayFollow := by
  rw [unindented_eq_iff (by simp)]
  rfl

lemma unindented_append_newline (state : BlockState) (s : List Char) :
    unindented state (s ++ ['\n']) = unindented state s ++ ['\n'] ∨
      unindented state (s ++ ['\n']) = unindented state s := by
  induction s generalizing state with
  | nil =>
    rw [List.nil_append, unindented_newline]
    exact Or.inl rfl
  | cons c rest ih =>
    rw [List.cons_append]
    by_cases hn : c = '\n'
    · rw [hn, unindented_newline, unindented_newline]
      rcases ih .fresh with h | h <;> simp [h]
    · cases hsep : isSeparator c with
      | true =>
        rw [unindented_separator hsep, unindented_separator hsep]
        rcases ih (.raw 0) with h | h <;> simp [h]
      | false =>
        cases state with
        | raw n =>
          rw [unindented_raw hn hsep, unindented_raw hn hsep]
          split
          · rcases ih .line with h | h <;> simp [h]
          · split
            · exact ih (.raw (n + 1))
            · exact Or.inr rfl
        | fresh =>
          rw [unindented_word hn hsep (by simp), unindented_word hn hsep (by simp)]
          rcases ih .line with h | h <;> simp [h]
        | line =>
          rw [unindented_word hn hsep (by simp), unindented_word hn hsep (by simp)]
          rcases ih .line with h | h <;> simp [h]

/-! ### Reading blank lines and indentation -/

section Lead
variable {tail : List Char}

/-- Whether a text starts with no blank and no break, so that a block that needs indentation ends
before it. -/
def EndsBlock (tail : List Char) : Prop := ∀ c ∈ tail.head?, isBlank c = false ∧ isBreak c = false

def BlockState.column : BlockState → Nat
  | .raw n => n
  | _ => 0

/-- What the reader of a block finds after a break of an indented text: the end of the text, a line,
or a line that is not indented far enough. -/
inductive LeadOutcome (state : BlockState) (v tail breaks : List Char) (lead : BlockLead) : Prop
  | ended (added : List Char) (hrest : lead.rest = tail) (hcolumn : lead.column = 0)
    (hbreaks : lead.breaks = added.reverse ++ breaks) (hv : unindented state v = added)
  | line (added : List Char) (c : Char) (r : List Char) (hc : isBreak c = false)
    (hsuffix : (c :: r) <:+ v) (hrest : lead.rest = c :: (indented false r ++ tail))
    (hcolumn : lead.column = 2) (hbreaks : lead.breaks = added.reverse ++ breaks)
    (hv : unindented state v = added ++ unindented .line (c :: r))
  | short (added : List Char) (c : Char) (r : List Char) (hrest : lead.rest = c :: r)
    (hcolumn : lead.column ≠ 2) (hbreaks : lead.breaks = added.reverse ++ breaks)
    (hv : unindented state v = added) (hchain : ¬ (state.last :: v).IsChain MayFollow)

lemma readBlockLead_break {c : Char} (hr : c ≠ '\r') (hbreak : isBreak c = true) (rest : List Char)
    (column widest : Nat) (breaks : List Char) :
    readBlockLead? (some 2) (c :: rest) column widest breaks =
      readBlockLead? (some 2) rest 0 (max widest column) (keptBreak c :: breaks) := by
  have hs : c ≠ ' ' := by rintro rfl; revert hbreak; decide
  have ht : c ≠ '\t' := by rintro rfl; revert hbreak; decide
  rw [readBlockLead?]
  · simp [hs, ht, hbreak]
  · simp [hr]

lemma readBlockLead_space (rest : List Char) {column : Nat} (h : column < 2) (widest : Nat)
    (breaks : List Char) :
    readBlockLead? (some 2) (' ' :: rest) column widest breaks =
      readBlockLead? (some 2) rest (column + 1) widest breaks := by
  rw [readBlockLead?]
  · simp [h]
  · simp

lemma readBlockLead_stop {c : Char} (hbreak : isBreak c = false) {column : Nat}
    (hblank : column < 2 → isBlank c = false) (rest : List Char) (widest : Nat)
    (breaks : List Char) :
    readBlockLead? (some 2) (c :: rest) column widest breaks =
      some ⟨breaks, max widest column, column, c :: rest⟩ := by
  have hr : c ≠ '\r' := by rintro rfl; revert hbreak; decide
  have hs : column < 2 → c ≠ ' ' := by
    rintro hlt rfl
    cases hblank hlt
  have ht : column < 2 → c ≠ '\t' := by
    rintro hlt rfl
    cases hblank hlt
  rw [readBlockLead?]
  · by_cases hlt : column < 2
    · simp [hs hlt, ht hlt, hbreak]
    · simp [hlt, hbreak]
  · simp [hr]

lemma readBlockLead_tab (rest : List Char) {column : Nat} (h : column < 2) (widest : Nat)
    (breaks : List Char) :
    readBlockLead? (some 2) ('\t' :: rest) column widest breaks = none := by
  rw [readBlockLead?]
  · simp [h]
  · simp

lemma readBlockLead_tail (htail : EndsBlock tail) (widest : Nat) (breaks : List Char) :
    readBlockLead? (some 2) tail 0 widest breaks = some ⟨breaks, max widest 0, 0, tail⟩ := by
  cases tail with
  | nil => rfl
  | cons c rest =>
    obtain ⟨hblank, hbreak⟩ := htail c rfl
    exact readBlockLead_stop hbreak (fun _ => hblank) rest widest breaks

lemma LeadOutcome.cons {state next : BlockState} {c : Char} {v breaks : List Char}
    {lead : BlockLead} (h : LeadOutcome next v tail (c :: breaks) lead)
    (hstate : unindented state (c :: v) = c :: unindented next v)
    (hchain : (c :: v).IsChain MayFollow → (next.last :: v).IsChain MayFollow) :
    LeadOutcome state (c :: v) tail breaks lead := by
  have hchain' : (state.last :: c :: v).IsChain MayFollow → (next.last :: v).IsChain MayFollow :=
    fun h => hchain (List.isChain_cons_cons.mp h).2
  cases h with
  | ended added hrest hcolumn hbreaks hv =>
    refine .ended (c :: added) hrest hcolumn ?_ ?_
    · simp [hbreaks]
    · rw [hstate, hv]
  | line added d r hd hsuffix hrest hcolumn hbreaks hv =>
    refine .line (c :: added) d r hd (hsuffix.trans (List.suffix_cons c v)) hrest hcolumn ?_ ?_
    · simp [hbreaks]
    · rw [hstate, hv]
      rfl
  | short added d r hrest hcolumn hbreaks hv hnot =>
    refine .short (c :: added) d r hrest hcolumn ?_ ?_ (mt hchain' hnot)
    · simp [hbreaks]
    · rw [hstate, hv]

/-- A text that an indentation starts or goes on with: it has no break but line feeds and separators,
and ends its last line. -/
structure WholeLines (state : BlockState) (v : List Char) : Prop where
  noReturn : '\r' ∉ v
  noNextLine : '\u0085' ∉ v
  empty : v = [] → state = .fresh
  last : v ≠ [] → v.getLast? = some '\n'

lemma WholeLines.newline {state : BlockState} {v : List Char} (h : WholeLines state ('\n' :: v)) :
    WholeLines .fresh v where
  noReturn := fun hmem => h.noReturn (List.mem_cons_of_mem _ hmem)
  noNextLine := fun hmem => h.noNextLine (List.mem_cons_of_mem _ hmem)
  empty := fun _ => rfl
  last := by
    intro hv
    have hlast := h.last (by simp)
    rwa [List.getLast?_cons_of_ne_nil hv] at hlast

lemma WholeLines.cons {state : BlockState} {c : Char} {v : List Char} (h : WholeLines state (c :: v))
    (hn : c ≠ '\n') (next : BlockState) : WholeLines next v where
  noReturn := fun hmem => h.noReturn (List.mem_cons_of_mem _ hmem)
  noNextLine := fun hmem => h.noNextLine (List.mem_cons_of_mem _ hmem)
  empty := by
    rintro rfl
    have hlast := h.last (by simp)
    exact absurd (by simpa using hlast) hn
  last := by
    intro hv
    have hlast := h.last (by simp)
    rwa [List.getLast?_cons_of_ne_nil hv] at hlast

lemma WholeLines.isBreak_eq {state : BlockState} {v : List Char} (h : WholeLines state v) {c : Char}
    (hc : c ∈ v) : isBreak c = (c == '\n' || isSeparator c) := by
  have hr : (c == '\r') = false := beq_false_of_ne fun he => h.noReturn (he ▸ hc)
  have h85 : (c.toNat == 0x85) = false :=
    beq_false_of_ne fun he => h.noNextLine ((Char.toNat_inj.mp he : c = '\u0085') ▸ hc)
  rw [isBreak, isSeparator, hr, h85, Bool.false_or, Bool.or_false, Bool.or_assoc]

section Word
variable {c : Char} {v breaks : List Char} {widest : Nat} {lead : BlockLead}
  (hn : c ≠ '\n') (hsep : isSeparator c = false) (hbreak : isBreak c = false)
include hn hsep hbreak

lemma readBlockLead_word_fresh
    (h : readBlockLead? (some 2) (indented true (c :: v) ++ tail) 0 widest breaks = some lead) :
    LeadOutcome .fresh (c :: v) tail breaks lead := by
  rw [indented_true_cons hn, List.cons_append, List.cons_append, List.cons_append,
    readBlockLead_space _ (by decide), readBlockLead_space _ (by decide),
    readBlockLead_stop hbreak (by omega), Option.some.injEq] at h
  subst h
  refine .line [] c v hbreak (List.suffix_refl _) rfl rfl rfl ?_
  rw [unindented_word hn hsep (by simp), unindented_word hn hsep (by simp)]
  rfl

/-- After a separator a space may be taken for indentation, and reading goes on behind it. -/
lemma readBlockLead_word_raw {n : Nat} (hcolumn : n ≤ 2)
    (hmore : c = ' ' → n < 2 →
      readBlockLead? (some 2) (indented false v ++ tail) (n + 1) widest breaks = some lead →
      LeadOutcome (.raw (n + 1)) v tail breaks lead)
    (h : readBlockLead? (some 2) (indented false (c :: v) ++ tail) n widest breaks = some lead) :
    LeadOutcome (.raw n) (c :: v) tail breaks lead := by
  have hnot : ¬ ((BlockState.raw n).last :: c :: v).IsChain MayFollow := by
    have hl : isSeparator '\u2028' = true := by decide
    simp [List.isChain_cons_cons, MayFollow, BlockState.last, hl, hn, hsep]
  rw [indented_false_cons hn, List.cons_append] at h
  by_cases hfull : 2 ≤ n
  · have hn2 : n = 2 := Nat.le_antisymm hcolumn hfull
    subst hn2
    rw [readBlockLead_stop hbreak (by omega), Option.some.injEq] at h
    subst h
    refine .line [] c v hbreak (List.suffix_refl _) rfl rfl rfl ?_
    rw [unindented_raw hn hsep, if_pos hfull, unindented_word hn hsep (by simp)]
    rfl
  have hlt : n < 2 := by omega
  by_cases hs : c = ' '
  · subst hs
    rw [readBlockLead_space _ hlt] at h
    have hsame : unindented (.raw n) (' ' :: v) = unindented (.raw (n + 1)) v := by
      rw [unindented_raw hn hsep, if_neg hfull, if_pos rfl]
    cases hmore rfl hlt h with
    | ended added hrest hcol hbreaks hv =>
      exact .ended added hrest hcol hbreaks (hsame.trans hv)
    | line added d r hd hsuffix hrest hcol hbreaks hv =>
      exact .line added d r hd (hsuffix.trans (List.suffix_cons _ v)) hrest hcol hbreaks
        (hsame.trans hv)
    | short added d r hrest hcol hbreaks hv _ =>
      exact .short added d r hrest hcol hbreaks (hsame.trans hv) hnot
  · by_cases ht : c = '\t'
    · subst ht
      rw [readBlockLead_tab _ hlt] at h
      cases h
    · have hblank : isBlank c = false := by simp [isBlank, hs, ht]
      rw [readBlockLead_stop hbreak (fun _ => hblank), Option.some.injEq] at h
      subst h
      refine .short [] c _ rfl (by simpa using hlt.ne) rfl ?_ hnot
      rw [unindented_raw hn hsep, if_neg hfull, if_neg hs]

end Word

/-- What the reader finds after a break, by induction on the text that was indented. -/
lemma readBlockLead_indented (htail : EndsBlock tail) {v : List Char} {state : BlockState}
    (hv : WholeLines state v) (hline : state ≠ .line) (hcolumn : state.column ≤ 2) {widest : Nat}
    {breaks : List Char} {lead : BlockLead}
    (h : readBlockLead? (some 2) (indented (state == .fresh) v ++ tail) state.column widest breaks =
      some lead) :
    LeadOutcome state v tail breaks lead := by
  induction v generalizing state widest breaks with
  | nil =>
    rw [hv.empty rfl] at h ⊢
    change readBlockLead? (some 2) tail 0 widest breaks = some lead at h
    rw [readBlockLead_tail htail, Option.some.injEq] at h
    subst h
    exact .ended [] rfl rfl rfl rfl
  | cons c v ih =>
    have hbreak := hv.isBreak_eq List.mem_cons_self
    have hr : c ≠ '\r' := fun he => hv.noReturn (he ▸ List.mem_cons_self)
    by_cases hn : c = '\n'
    · subst hn
      rw [indented_newline, List.cons_append, readBlockLead_break (by decide) (by decide)] at h
      exact (ih hv.newline (by decide) (by decide) h).cons (unindented_newline _ _) id
    · have hnb : (c == '\n') = false := beq_false_of_ne hn
      rw [hnb, Bool.false_or] at hbreak
      cases hsep : isSeparator c with
      | true =>
        rw [hsep] at hbreak
        -- a separator right after a line feed has got an indentation of its own
        have hread : ∃ column, readBlockLead? (some 2) (c :: (indented false v ++ tail)) column
            widest breaks = some lead := by
          cases state with
          | fresh =>
            rw [show (BlockState.fresh == .fresh) = true from rfl, indented_true_cons hn] at h
            simp only [List.cons_append, BlockState.column] at h
            rw [readBlockLead_space _ (by decide), readBlockLead_space _ (by decide)] at h
            exact ⟨2, h⟩
          | raw n =>
            rw [show (BlockState.raw n == .fresh) = false from rfl, indented_false_cons hn] at h
            exact ⟨n, h⟩
          | line => exact absurd rfl hline
        obtain ⟨column, hread⟩ := hread
        rw [readBlockLead_break hr hbreak, keptBreak_of_separator hsep] at hread
        have hnext := ih (hv.cons hn (.raw 0)) (by decide) (by decide) hread
        refine hnext.cons (unindented_separator hsep _ _) ?_
        have hl : isSeparator '\u2028' = true := by decide
        exact (isChain_cons_iff_of_last (hl.trans hsep.symm) v).mpr
      | false =>
        rw [hsep] at hbreak
        cases state with
        | fresh => exact readBlockLead_word_fresh hn hsep hbreak h
        | raw n =>
          refine readBlockLead_word_raw hn hsep hbreak hcolumn ?_ h
          intro _ hlt hread
          exact ih (hv.cons hn (.raw (n + 1))) (by simp) (by simp only [BlockState.column]; omega)
            hread
        | line => exact absurd rfl hline

/-! ### Reading lines -/

/-- Everything that has been read of a block scalar, with all breaks. -/
def BlockText.all (b : BlockText) : List Char := (b.trail ++ (b.lead.toList ++ b.text)).reverse

def BlockState.afterBreak (d : Char) : BlockState := if d = '\n' then .fresh else .raw 0

def IsKeptBreak (c : Char) : Prop := c = '\n' ∨ isSeparator c = true

namespace IsKeptBreak

variable {c : Char}

lemma isBreak_eq_true (h : IsKeptBreak c) : isBreak c = true := by
  rcases h with rfl | hsep
  · decide
  · exact isBreak_of_separator hsep

lemma ne_carriageReturn (h : IsKeptBreak c) : c ≠ '\r' := by
  rintro rfl
  exact absurd h (by unfold IsKeptBreak; decide)

lemma keptBreak_eq (h : IsKeptBreak c) : keptBreak c = c := by
  rcases h with rfl | hsep
  · decide
  · exact keptBreak_of_separator hsep

lemma isSeparator_last_afterBreak (h : IsKeptBreak c) :
    isSeparator c = isSeparator (BlockState.afterBreak c).last := by
  unfold BlockState.afterBreak
  rcases h with rfl | hsep
  · rfl
  · rw [if_neg (ne_newline_of_separator hsep), hsep]
    decide

end IsKeptBreak

lemma indented_word {word : List Char} (hword : ∀ c ∈ word, isBreak c = false) (d : Char)
    (v : List Char) :
    indented false (word ++ d :: v) = word ++ d :: indented (d == '\n') v := by
  induction word with
  | nil => simp [indented]
  | cons c word ih =>
    have hn : c ≠ '\n' := by
      rintro rfl
      exact absurd (hword '\n' List.mem_cons_self) (by decide)
    rw [List.cons_append, indented_false_cons hn, ih fun c hc => hword c (List.mem_cons_of_mem _ hc)]
    rfl

lemma unindented_line_word {word : List Char} (hword : ∀ c ∈ word, isBreak c = false) {d : Char}
    (hd : d = '\n' ∨ isSeparator d = true) (v : List Char) :
    unindented .line (word ++ d :: v) = word ++ d :: unindented (.afterBreak d) v := by
  induction word with
  | nil =>
    rcases hd with rfl | hd
    · exact unindented_newline _ _
    · rw [BlockState.afterBreak, if_neg (ne_newline_of_separator hd)]
      exact unindented_separator hd _ _
  | cons c word ih =>
    have hc := hword c List.mem_cons_self
    have hn : c ≠ '\n' := by
      rintro rfl
      exact absurd hc (by decide)
    have hsep : isSeparator c = false := by
      cases hsep : isSeparator c with
      | false => rfl
      | true =>
        have hr : c ≠ '\r' := by
          rintro rfl
          exact absurd hc (by decide)
        rw [isBreak_eq hr hn, hsep] at hc
        cases hc
    rw [List.cons_append, unindented_word hn hsep (by simp),
      ih fun c hc => hword c (List.mem_cons_of_mem _ hc)]
    rfl

lemma WholeLines.exists_line {state : BlockState} {v s : List Char} (h : WholeLines state v)
    (hs : s <:+ v) (hne : s ≠ []) :
    ∃ word d v', s = word ++ d :: v' ∧ (∀ e ∈ word, isBreak e = false) ∧
      (d = '\n' ∨ isSeparator d = true) ∧ WholeLines (.afterBreak d) v' := by
  induction s with
  | nil => exact absurd rfl hne
  | cons c s ih =>
    obtain ⟨front, rfl⟩ := hs
    have hlast : (c :: s).getLast? = some '\n' := by
      have hend := h.last (by simp)
      rwa [List.getLast?_append_of_ne_nil _ (by simp)] at hend
    have hwhole : WholeLines .line (c :: s) :=
      ⟨fun hmem => h.noReturn (List.mem_append_right _ hmem),
        fun hmem => h.noNextLine (List.mem_append_right _ hmem), by simp, fun _ => hlast⟩
    have hbreak := hwhole.isBreak_eq List.mem_cons_self
    by_cases hn : c = '\n'
    · subst hn
      exact ⟨[], '\n', s, rfl, by simp, Or.inl rfl, hwhole.newline⟩
    · cases hsep : isSeparator c with
      | true =>
        refine ⟨[], c, s, rfl, by simp, Or.inr hsep, ?_⟩
        rw [BlockState.afterBreak, if_neg hn]
        exact hwhole.cons hn (.raw 0)
      | false =>
        have hc : isBreak c = false := by
          rw [hbreak, hsep, beq_false_of_ne hn]
          rfl
        have hs : s ≠ [] := fun he => nomatch (hwhole.cons hn .line).empty he
        obtain ⟨word, d, v', rfl, hword, hd, hv'⟩ :=
          ih ⟨front ++ [c], by simp⟩ hs
        refine ⟨c :: word, d, v', rfl, ?_, hd, hv'⟩
        intro e he
        rcases List.mem_cons.mp he with rfl | he
        · exact hc
        · exact hword e he

lemma firstLine_word {word : List Char} (hword : ∀ c ∈ word, isBreak c = false) {d : Char}
    (hd : isBreak d = true) (rest : List Char) :
    firstLine (word ++ d :: rest) = word ∧ afterLine (word ++ d :: rest) = d :: rest := by
  have hall : ∀ c ∈ word, (!isBreak c) = true := fun c hc => by rw [hword c hc]; rfl
  constructor
  · rw [firstLine, List.takeWhile_append_of_pos hall, List.takeWhile_cons_of_neg (by simp [hd]),
      List.append_nil]
  · rw [afterLine, List.dropWhile_append_of_pos hall, List.dropWhile_cons_of_neg (by simp [hd])]

section Lines
variable {tail : List Char}

lemma readBlockLines_stop {column : Nat} {s : List Char} (b : BlockText)
    (h : s = [] ∨ column ≠ 2) : readBlockLines? false 2 column s b = some (b, s) := by
  cases s with
  | nil => rw [readBlockLines?]
  | cons c rest =>
    rw [readBlockLines?, if_neg]
    simpa using h

lemma dropBreak_cons {d : Char} (hr : d ≠ '\r') (hd : isBreak d = true) (rest : List Char) :
    dropBreak (d :: rest) = rest := by
  rw [dropBreak]
  · rw [if_pos hd]
  · simp [hr]

lemma readBlockLines_line {c : Char} {word : List Char} (hwords : ∀ e ∈ c :: word, isBreak e = false)
    {d : Char} (hr : d ≠ '\r') (hd : isBreak d = true) (rest : List Char) (b : BlockText) :
    readBlockLines? false 2 2 (c :: word ++ d :: rest) b =
      (readBlockLead? (some 2) rest 0 0 []).bind fun lead =>
        readBlockLines? false 2 lead.column lead.rest
          ⟨(c :: word).reverse ++ (b.trail ++ (b.lead.toList ++ b.text)), some (keptBreak d),
            lead.breaks, isBlank c⟩ := by
  obtain ⟨hfirst, hafter⟩ := firstLine_word hwords hd rest
  rw [List.cons_append] at hfirst hafter ⊢
  rw [readBlockLines?, if_pos rfl, hfirst, hafter, dropBreak_cons hr hd]
  have hend : lineEnd? (d :: rest) = some (keptBreak d) := if_pos hd
  have hcontinued : b.continued false (c :: word) = b.trail ++ (b.lead.toList ++ b.text) := rfl
  rw [hend, hcontinued]
  cases readBlockLead? (some 2) rest 0 0 [] <;> rfl

lemma beq_afterBreak (d : Char) :
    (BlockState.afterBreak d == .fresh) = (d == '\n') ∧ (BlockState.afterBreak d).column = 0 ∧
      BlockState.afterBreak d ≠ .line := by
  unfold BlockState.afterBreak
  by_cases hn : d = '\n'
  · simp [hn, BlockState.column]
  · simp [hn, BlockState.column]

/-- The reader of an indented text reads what `unindented` says, line by line. -/
lemma readBlockLines_indented (htail : EndsBlock tail) (k : Nat) {v : List Char}
    (hk : v.length ≤ k) {state : BlockState} (hv : WholeLines state v) (hline : state ≠ .line)
    (hcolumn : state.column ≤ 2) {lead : BlockLead} {text : List Char} {before : Option Char}
    {blank : Bool} {out : BlockText × List Char}
    (hlead : readBlockLead? (some 2) (indented (state == .fresh) v ++ tail) state.column 0 [] =
      some lead)
    (h : readBlockLines? false 2 lead.column lead.rest ⟨text, before, lead.breaks, blank⟩ =
      some out) :
    out.1.all = (before.toList ++ text).reverse ++ unindented state v ∧
      ((state.last :: v).IsChain MayFollow → out.2 = tail) := by
  -- Reading goes on behind a whole line, so the induction is on a bound of the length.
  induction k generalizing v state lead text before blank with
  | zero =>
    rw [Nat.le_zero, List.length_eq_zero_iff] at hk
    subst hk
    rw [hv.empty rfl] at hlead ⊢
    change readBlockLead? (some 2) tail 0 0 [] = some lead at hlead
    rw [readBlockLead_tail htail, Option.some.injEq] at hlead
    subst hlead
    rw [readBlockLines_stop _ (Or.inr (Nat.zero_ne_add_one 1)), Option.some.injEq] at h
    subst h
    exact ⟨by simp [BlockText.all, unindented], fun _ => rfl⟩
  | succ k ih =>
    cases readBlockLead_indented htail hv hline hcolumn hlead with
    | ended added hrest hcol hbreaks hunind =>
      rw [readBlockLines_stop _ (Or.inr (by omega)), Option.some.injEq] at h
      subst h
      exact ⟨by simp [BlockText.all, hbreaks, hunind], fun _ => hrest⟩
    | short added c r hrest hcol hbreaks hunind hnot =>
      rw [readBlockLines_stop _ (Or.inr hcol), Option.some.injEq] at h
      subst h
      exact ⟨by simp [BlockText.all, hbreaks, hunind], fun hchain => absurd hchain hnot⟩
    | line added c r hc hsuffix hrest hcol hbreaks hunind =>
      obtain ⟨word, d, v', hword, hwords, hd, hv'⟩ := hv.exists_line hsuffix (by simp)
      have hkept : IsKeptBreak d := hd
      cases word with
      | nil =>
        rw [List.nil_append, List.cons.injEq] at hword
        rw [hword.1, hkept.isBreak_eq_true] at hc
        cases hc
      | cons c' word =>
        have hcn : c ≠ '\n' := by
          rintro rfl
          exact absurd hc (by decide)
        have hrest' : lead.rest = c' :: word ++ d :: (indented (d == '\n') v' ++ tail) := by
          rw [hrest, ← List.cons_append, ← indented_false_cons hcn, hword, indented_word hwords]
          simp
        rw [hcol, hrest', readBlockLines_line hwords hkept.ne_carriageReturn hkept.isBreak_eq_true] at h
        obtain ⟨lead', hlead', hlines⟩ := Option.bind_eq_some_iff.mp h
        obtain ⟨hfresh, hcol', hline'⟩ := beq_afterBreak d
        have hsub : v'.length ≤ k := by
          have hle := hsuffix.length_le
          rw [hword, List.length_append, List.length_cons, List.length_cons] at hle
          omega
        rw [← hfresh] at hlead'
        have hnext := ih hsub hv' hline' (by omega) (hcol'.symm ▸ hlead') hlines
        constructor
        · rw [hnext.1, hunind, hword, unindented_line_word hwords hd, hkept.keptBreak_eq, hbreaks]
          simp
        · intro hchain
          apply hnext.2
          have hdv : (d :: v').IsChain MayFollow := by
            refine hchain.suffix (List.IsSuffix.trans ?_ (List.suffix_cons _ v))
            refine List.IsSuffix.trans ?_ hsuffix
            rw [hword]
            exact List.suffix_append _ _
          exact (isChain_cons_iff_of_last hkept.isSeparator_last_afterBreak v').mp hdv

end Lines

end Lead

/-! ### What no block is read as -/

/-- What holds of everything that has been read of a literal block. -/
structure BlockText.Sound (b : BlockText) : Prop where
  text : ∀ c ∈ b.text, isBreak c = true → IsKeptBreak c
  word : ∀ c ∈ b.text.head?, isBreak c = false
  lead : ∀ c ∈ b.lead, IsKeptBreak c
  trail : ∀ c ∈ b.trail, IsKeptBreak c

lemma isKeptBreak_keptBreak (c : Char) : IsKeptBreak (keptBreak c) := by
  unfold keptBreak
  split
  · rename_i h
    exact Or.inr h
  · exact Or.inl rfl

lemma readBlockLead_sound {indent : Option Nat} {s : List Char} {column widest : Nat}
    {breaks : List Char} {lead : BlockLead} (hbreaks : ∀ c ∈ breaks, IsKeptBreak c)
    (h : readBlockLead? indent s column widest breaks = some lead) :
    (∀ c ∈ lead.breaks, IsKeptBreak c) ∧ ∀ c ∈ lead.rest.head?, isBreak c = false := by
  fun_induction readBlockLead? indent s column widest breaks with
  | case1 column widest breaks =>
    rw [Option.some.injEq] at h
    subst h
    exact ⟨hbreaks, by simp⟩
  | case2 rest column widest breaks ih =>
    refine ih ?_ h
    intro c hc
    rcases List.mem_cons.mp hc with rfl | hc
    · exact Or.inl rfl
    · exact hbreaks c hc
  | case3 column widest breaks c rest _ _ ih => exact ih hbreaks h
  | case4 => cases h
  | case5 column widest breaks c rest _ _ _ _ ih =>
    refine ih ?_ h
    intro d hd
    rcases List.mem_cons.mp hd with rfl | hd
    · exact isKeptBreak_keptBreak _
    · exact hbreaks d hd
  | case6 column widest breaks c rest _ _ _ hbreak =>
    rw [Option.some.injEq] at h
    subst h
    exact ⟨hbreaks, by simpa using hbreak⟩

lemma isBreak_of_mem_firstLine {s : List Char} {c : Char} (h : c ∈ firstLine s) :
    isBreak c = false := by
  have hword := List.all_eq_true.mp (List.all_takeWhile (p := fun c => !isBreak c) (l := s)) c h
  simpa using hword

/-- Whatever a literal block holds, no break comes back from it but line feeds and separators, and its
text, without the breaks at its end, ends in a word. -/
lemma readBlockLines_sound {indent column : Nat} {s : List Char} {b : BlockText}
    {out : BlockText × List Char} (hb : b.Sound) (hs : ∀ c ∈ s.head?, isBreak c = false)
    (h : readBlockLines? false indent column s b = some out) : out.1.Sound := by
  fun_induction readBlockLines? false indent column s b with
  | case1 column b =>
    rw [Option.some.injEq] at h
    subst h
    exact hb
  | case2 => cases h
  | case3 b c rest lead hlead ih =>
    have hc : isBreak c = false := hs c rfl
    obtain ⟨hbreaks, hhead⟩ := readBlockLead_sound (by simp) hlead
    refine ih ⟨?_, ?_, ?_, hbreaks⟩ hhead h
    · intro d hd
      rcases List.mem_append.mp hd with hd | hd
      · intro hbreak
        rw [isBreak_of_mem_firstLine (List.mem_reverse.mp hd)] at hbreak
        cases hbreak
      · intro hbreak
        rcases List.mem_append.mp hd with hd | hd
        · exact hb.trail d hd
        · rcases List.mem_append.mp hd with hd | hd
          · exact hb.lead d (Option.mem_toList.mp hd)
          · exact hb.text d hd hbreak
    · intro d hd
      have hne : (firstLine (c :: rest)).reverse ≠ [] := by
        simp [firstLine, hc]
      rw [List.head?_append_of_ne_nil _ hne] at hd
      exact isBreak_of_mem_firstLine (List.mem_reverse.mp (List.mem_of_mem_head? hd))
    · intro d hd
      unfold lineEnd? at hd
      split at hd
      · cases hd
      · split at hd
        · rw [Option.mem_def, Option.some.injEq] at hd
          subst hd
          exact isKeptBreak_keptBreak _
        · cases hd
  | case4 column b c rest hne =>
    rw [Option.some.injEq] at h
    subst h
    exact hb

/-! ### Literal blocks -/

/-- The chomping indicator of a literal block for a text. -/
def blockSign (body : List Char) : Char := if body.getLast? = some '\n' then '+' else '-'

/-- The lines of a literal block for a text, the last of which is ended. -/
def blockLines (body : List Char) : List Char :=
  if body.getLast? = some '\n' then body else body ++ ['\n']

lemma toList_literalBlock (key body : String) :
    (literalBlock key body).toList = key.toList ++ ':' :: ' ' :: '|' :: '2' ::
      blockSign body.toList :: '\n' :: indented true (blockLines body.toList) := by
  have hends : endsLine (reindent blockIndent body) = decide (body.toList.getLast? = some '\n') := by
    rw [endsLine, toList_reindent, getLast?_indented, beq_eq_decide]
  unfold literalBlock blockSign blockLines
  dsimp only
  rw [hends]
  by_cases h : body.toList.getLast? = some '\n'
  · simp [h, toList_reindent]
  · simp [h, toList_reindent, indented_append_newline]

lemma readBlock_header (body s : List Char) :
    readBlock? false 0 ('2' :: blockSign body :: '\n' :: s) =
      (readBlockLead? (some 2) s 0 0 []).bind fun lead =>
        (readBlockLines? false 2 lead.column lead.rest ⟨[], none, lead.breaks, false⟩).map fun out =>
          (out.1.chomped (if body.getLast? = some '\n' then .keep else .strip), out.2) := by
  have hheader : readBlockHeader? ('2' :: blockSign body :: '\n' :: s) =
      some (⟨if body.getLast? = some '\n' then .keep else .strip, some 2⟩, s) := by
    unfold blockSign
    by_cases h : body.getLast? = some '\n'
    · rw [if_pos h, if_pos h]
      rfl
    · rw [if_neg h, if_neg h]
      rfl
  unfold readBlock?
  rw [hheader]
  change (readBlockLead? (some 2) s 0 0 []).bind (fun lead =>
    (readBlockLines? false 2 lead.column lead.rest ⟨[], none, lead.breaks, false⟩).bind _) = _
  cases readBlockLead? (some 2) s 0 0 [] with
  | none => rfl
  | some lead =>
    rw [Option.bind_some, Option.bind_some, Option.map_eq_bind]
    rfl

lemma getLast?_blockLines (body : List Char) : (blockLines body).getLast? = some '\n' := by
  unfold blockLines
  split
  · assumption
  · exact List.getLast?_concat

lemma wholeLines_blockLines {body : List Char} (hr : '\r' ∉ body) (h85 : '\u0085' ∉ body) :
    WholeLines .fresh (blockLines body) where
  noReturn := by
    unfold blockLines
    split <;> simp [hr]
  noNextLine := by
    unfold blockLines
    split <;> simp [h85]
  empty := fun _ => rfl
  last := fun _ => getLast?_blockLines body

lemma chomped_sound {b : BlockText} (h : b.Sound) (chomping : Chomping) {c : Char}
    (hc : c ∈ b.chomped chomping) (hbreak : isBreak c = true) : IsKeptBreak c := by
  have hall : c ∈ b.trail ∨ c ∈ b.lead.toList ∨ c ∈ b.text := by
    cases chomping with
    | strip => exact Or.inr (Or.inr (List.mem_reverse.mp hc))
    | clip => exact Or.inr (List.mem_append.mp (List.mem_reverse.mp hc))
    | keep => exact (List.mem_append.mp (List.mem_reverse.mp hc)).imp_right List.mem_append.mp
  rcases hall with hc | hc | hc
  · exact h.trail c hc
  · exact h.lead c (Option.mem_toList.mp hc)
  · exact h.text c hc hbreak

lemma unindented_of_append {body extra : List Char} (hnl : body.getLast? ≠ some '\n')
    (h : body ++ extra = unindented .fresh (body ++ ['\n'])) : unindented .fresh body = body := by
  have hbound := length_unindented_le .fresh body
  have hlen : ∀ l, body ++ extra = l → body.length + extra.length = l.length := by
    rintro l rfl
    exact List.length_append.symm
  rcases unindented_append_newline .fresh body with hu | hu
  · rw [hu] at h
    have hsum := hlen _ h
    rw [List.length_append, List.length_singleton] at hsum
    rcases Nat.eq_zero_or_pos extra.length with hzero | hpos
    · rw [List.length_eq_zero_iff.mp hzero, List.append_nil] at h
      rw [h, List.getLast?_concat] at hnl
      exact absurd rfl hnl
    · exact (List.append_inj h (by omega)).1.symm
  · rw [hu] at h
    have hsum := hlen _ h
    have hzero : extra = [] := List.length_eq_zero_iff.mp (by omega)
    rw [hzero, List.append_nil] at h
    exact h.symm

lemma eq_of_append_breaks {word extra body : List Char}
    (hword : ∀ c ∈ word.getLast?, isBreak c = false) (hextra : ∀ c ∈ extra, isBreak c = true)
    (hbody : ∀ c ∈ body.getLast?, isBreak c = false) (h : word ++ extra = body ++ ['\n']) :
    word = body := by
  rcases List.eq_nil_or_concat extra with rfl | ⟨front, c, rfl⟩
  · rw [List.append_nil] at h
    have hlast := hword '\n' (by rw [h, List.getLast?_concat]; rfl)
    exact absurd hlast (by decide)
  · rw [List.concat_eq_append, ← List.append_assoc] at h
    have hbodyeq := (List.append_inj' h rfl).1
    rcases List.eq_nil_or_concat front with rfl | ⟨front, d, rfl⟩
    · simpa using hbodyeq
    · have hd := hextra d (by simp)
      have hend : body.getLast? = some d := by
        rw [← hbodyeq, List.concat_eq_append, ← List.append_assoc, List.getLast?_concat]
      have hlast := hbody d hend
      rw [hd] at hlast
      cases hlast

lemma BlockText.all_eq (b : BlockText) :
    b.all = b.text.reverse ++ (b.lead.toList ++ b.trail.reverse) := by
  have hlead : b.lead.toList.reverse = b.lead.toList := by cases b.lead <;> rfl
  simp [BlockText.all, hlead]

section Whole
variable {b : BlockText} {body : List Char}

lemma BlockText.Sound.last (h : b.Sound) : ∀ c ∈ b.text.reverse.getLast?, isBreak c = false := by
  rw [List.getLast?_reverse]
  exact h.word

lemma BlockText.Sound.isBreak_of_mem (h : b.Sound) {c : Char}
    (hc : c ∈ b.lead.toList ++ b.trail.reverse) : isBreak c = true := by
  rcases List.mem_append.mp hc with hc | hc
  · exact (h.lead c (Option.mem_toList.mp hc)).isBreak_eq_true
  · exact (h.trail c (List.mem_reverse.mp hc)).isBreak_eq_true

/-- Two of the breaks are lost from every block. -/
lemma BlockText.Sound.lost (h : b.Sound) (chomping : Chomping) :
    '\r' ∉ b.chomped chomping ∧ '\u0085' ∉ b.chomped chomping := by
  have hno : ∀ c, isBreak c = true → ¬ IsKeptBreak c → c ∉ b.chomped chomping :=
    fun c hc hnot hmem => hnot (chomped_sound h chomping hmem hc)
  exact ⟨hno _ (by decide) (by unfold IsKeptBreak; decide),
    hno _ (by decide) (by unfold IsKeptBreak; decide)⟩

/-- A text that ends its last line comes back, with all its breaks, if a block keeps it. -/
lemma all_eq_iff (hb : b.Sound) (hnl : body.getLast? = some '\n')
    (hread : '\r' ∉ body → '\u0085' ∉ body → b.all = unindented .fresh body) :
    b.all = body ↔ KeptByBlock body := by
  constructor
  · intro heq
    obtain ⟨hr, h85⟩ : '\r' ∉ body ∧ '\u0085' ∉ body := heq ▸ hb.lost .keep
    have hchain := (unindented_fresh_eq_iff body).mp ((hread hr h85).symm.trans heq)
    refine ⟨hr, h85, hchain.tail, ?_⟩
    intro c hc
    rw [hnl, Option.mem_def, Option.some.injEq] at hc
    subst hc
    decide
  · intro hkept
    rw [hread hkept.1 hkept.2.1, unindented_fresh_eq_iff]
    exact hkept.chain_newline

/-- A text that does not comes back without the breaks after it. -/
lemma reverse_text_eq_iff (hb : b.Sound) (hnl : body.getLast? ≠ some '\n')
    (hread : '\r' ∉ body → '\u0085' ∉ body → b.all = unindented .fresh (body ++ ['\n'])) :
    b.text.reverse = body ↔ KeptByBlock body := by
  rw [b.all_eq] at hread
  have hlast := hb.last
  constructor
  · intro heq
    obtain ⟨hr, h85⟩ : '\r' ∉ body ∧ '\u0085' ∉ body := heq ▸ hb.lost .strip
    rw [heq] at hread hlast
    have hwhole := unindented_of_append hnl (hread hr h85)
    refine ⟨hr, h85, ((unindented_fresh_eq_iff body).mp hwhole).tail, ?_⟩
    intro c hc
    by_contra hsep
    rw [Bool.not_eq_false] at hsep
    exact absurd (hlast c hc) (by simp [isBreak_of_separator hsep])
  · intro hkept
    obtain ⟨hr, h85, -, hend⟩ := id hkept
    have hbody : ∀ c ∈ body.getLast?, isBreak c = false := by
      intro c hc
      have hmem : c ∈ blockLines body := by
        rw [blockLines, if_neg hnl]
        exact List.mem_append_left _ (List.mem_of_getLast? hc)
      have hne : (c == '\n') = false := beq_false_of_ne (by rintro rfl; exact hnl hc)
      rw [(wholeLines_blockLines hr h85).isBreak_eq hmem, hend c hc, hne]
      rfl
    have hwhole := (unindented_fresh_eq_iff _).mpr hkept.chain_append_newline
    exact eq_of_append_breaks hlast (fun c => hb.isBreak_of_mem) hbody ((hread hr h85).trans hwhole)

end Whole

/-- What a literal block that holds a text is read as, if it is read at all: the text itself exactly
if a block keeps it, and then nothing after the block is touched. -/
theorem readBlock_literal {body tail : List Char} (htail : EndsBlock tail)
    {out : List Char × List Char}
    (h : readBlock? false 0 ('2' :: blockSign body :: '\n' ::
      (indented true (blockLines body) ++ tail)) = some out) :
    (out.1 = body ↔ KeptByBlock body) ∧ (KeptByBlock body → out.2 = tail) := by
  rw [readBlock_header] at h
  obtain ⟨lead, hlead, h⟩ := Option.bind_eq_some_iff.mp h
  obtain ⟨⟨b, rest⟩, hlines, rfl⟩ := Option.map_eq_some_iff.mp h
  have hsound : b.Sound := by
    obtain ⟨hbreaks, hhead⟩ := readBlockLead_sound (by simp) hlead
    exact readBlockLines_sound ⟨by simp, by simp, by simp, hbreaks⟩ hhead hlines
  have hread : '\r' ∉ body → '\u0085' ∉ body → b.all = unindented .fresh (blockLines body) ∧
      (('\n' :: blockLines body).IsChain MayFollow → rest = tail) := by
    intro hr h85
    have hv := wholeLines_blockLines hr h85
    have hall := readBlockLines_indented htail _ (Nat.le_refl _) hv (by decide) (by decide) hlead
      hlines
    exact ⟨by simpa using hall.1, hall.2⟩
  by_cases hnl : body.getLast? = some '\n'
  · have hlines : blockLines body = body := if_pos hnl
    rw [if_pos hnl]
    rw [hlines] at hread
    exact ⟨all_eq_iff hsound hnl fun hr h85 => (hread hr h85).1,
      fun hkept => (hread hkept.1 hkept.2.1).2 hkept.chain_newline⟩
  · have hlines : blockLines body = body ++ ['\n'] := if_neg hnl
    rw [if_neg hnl]
    rw [hlines] at hread
    exact ⟨reverse_text_eq_iff hsound hnl fun hr h85 => (hread hr h85).1,
      fun hkept => (hread hkept.1 hkept.2.1).2 hkept.chain_append_newline⟩

end WorkflowOperator.Yaml
