import Mathlib.Data.List.Chain
import Mathlib.Tactic.IntervalCases
import Mathlib.Tactic.Lemma
import WorkflowOperator.Json.Printer
import WorkflowOperator.Proofs.Yaml.Position
import WorkflowOperator.Yaml.Scalar.Quoted

/-!
# JSON quotes as YAML quotes

A text in the quotes of JSON is read as a double-quoted scalar. The escapes stand for the same
characters in both. Three characters that end a line in YAML need no escape in JSON, though, and at
these a scalar is folded: it comes back as it was exactly if it has no next line character and no space
beside a line or paragraph separator.
-/

namespace WorkflowOperator.Yaml

/-- The line and the paragraph separator, which a scalar keeps as they are. -/
def isSeparator (c : Char) : Bool := c.toNat == 0x2028 || c.toNat == 0x2029

def Gap.next (g : Gap) (c : Char) : Gap :=
  if c = ' ' then g.blank ' '
  else if isSeparator c || c.toNat == 0x85 then g.break_ (keptBreak c)
  else .none

def Gap.words (g : Gap) (c : Char) (acc : List Char) : List Char :=
  if c = ' ' || isSeparator c || c.toNat == 0x85 then acc else c :: (g.folded ++ acc)

/-- What a text in the quotes of JSON is read as. -/
def unquoted : List Char → Gap → List Char → List Char
  | [], g, acc => (g.folded ++ acc).reverse
  | c :: rest, g, acc => unquoted rest (g.next c) (g.words c acc)

/-- Whether two characters may be neighbours in a text that double quotes keep. -/
def MayAdjoin (a b : Char) : Prop :=
  ¬ (a = ' ' ∧ isSeparator b = true) ∧ ¬ (isSeparator a = true ∧ b = ' ')

instance : DecidableRel MayAdjoin := fun _ _ => inferInstanceAs (Decidable (_ ∧ _))

/-- Whether double quotes keep a text as it is. -/
def KeptByQuotes (s : List Char) : Prop := '\u0085' ∉ s ∧ s.IsChain MayAdjoin

instance : DecidablePred KeptByQuotes := fun _ => inferInstanceAs (Decidable (_ ∧ _))

/-! ### Reading escapes -/

lemma readDoubleQuoted_raw {c : Char} (rest : List Char) (g : Gap) (acc : List Char)
    (hr : c ≠ '\r') (hb : c ≠ '\\') :
    readDoubleQuoted? 0 (c :: rest) g acc =
      if isBlank c then readDoubleQuoted? 0 rest (g.blank c) acc
      else if isBreak c then readDoubleQuoted? 0 rest (g.break_ (keptBreak c)) acc
      else if g.atLineStart && startsDocumentMark (c :: rest) then none
      else if c = '"' then some ((g.folded ++ acc).reverse, rest)
      else readDoubleQuoted? 0 rest .none (c :: (g.folded ++ acc)) := by
  rw [readDoubleQuoted?]
  · simp [hb]
  all_goals simp_all

lemma readDoubleQuoted_simple {e c : Char} (rest : List Char) (g : Gap) (acc : List Char)
    (hbreak : isBreak e = false) (hcode : codeLength? e = none) (hsimple : simpleEscape? e = some c) :
    readDoubleQuoted? 0 ('\\' :: e :: rest) g acc =
      readDoubleQuoted? 0 rest .none (c :: (g.folded ++ acc)) := by
  have hr : e ≠ '\r' := by
    rintro rfl
    cases hbreak
  rw [readDoubleQuoted?]
  · simp [hbreak, hcode, hsimple]
  all_goals simp_all

lemma readDoubleQuoted_skip (s rest : List Char) (g : Gap) (acc : List Char) :
    readDoubleQuoted? s.length (s ++ rest) g acc = readDoubleQuoted? 0 rest g acc := by
  induction s with
  | nil => rfl
  | cons c s ih =>
    rw [List.length_cons, List.cons_append, readDoubleQuoted?]
    exact ih

def controlDigits (c : Char) : List Char :=
  List.replicate (4 - (Text.hexDigits c.toNat).length) '0' ++ Text.hexDigits c.toNat

lemma codePoint_controlDigits {c : Char} (h : c.toNat < 0x20) :
    (controlDigits c).length = 4 ∧ Text.codePoint? 4 (controlDigits c) = some c := by
  obtain ⟨n, hn, rfl⟩ : ∃ n, n < 0x20 ∧ c = Char.ofNat n := ⟨c.toNat, h, (Char.ofNat_toNat c).symm⟩
  interval_cases n <;> decide

lemma codePoint_append {s : List Char} (hs : s.length = 4) (rest : List Char) :
    Text.codePoint? 4 (s ++ rest) = Text.codePoint? 4 s := by
  unfold Text.codePoint?
  rw [List.take_left' hs, List.take_of_length_le (by omega)]

lemma readDoubleQuoted_control {c : Char} (h : c.toNat < 0x20) (rest : List Char) (g : Gap)
    (acc : List Char) :
    readDoubleQuoted? 0 ('\\' :: 'u' :: (controlDigits c ++ rest)) g acc =
      readDoubleQuoted? 0 rest .none (c :: (g.folded ++ acc)) := by
  obtain ⟨hlen, hcode⟩ := codePoint_controlDigits h
  have hskip := readDoubleQuoted_skip (controlDigits c) rest .none (c :: (g.folded ++ acc))
  rw [hlen] at hskip
  have hpoint : Text.codePoint? 4 (controlDigits c ++ rest) = some c := by
    rw [codePoint_append hlen, hcode]
  have hbreak : isBreak 'u' = false := by decide
  have hlength : codeLength? 'u' = some 4 := rfl
  rw [readDoubleQuoted?]
  · simp only [hbreak, hlength, hpoint, Bool.false_eq_true, if_false]
    exact hskip
  all_goals simp

lemma escape_of_raw {c : Char} (hq : c ≠ '"') (hb : c ≠ '\\') (h : 0x20 ≤ c.toNat) :
    Json.escape c = [c] := by
  have hn : c ≠ '\n' := by rintro rfl; exact absurd h (by decide)
  have hr : c ≠ '\r' := by rintro rfl; exact absurd h (by decide)
  have ht : c ≠ '\t' := by rintro rfl; exact absurd h (by decide)
  have h8 : c ≠ '\x08' := by rintro rfl; exact absurd h (by decide)
  have hc : c ≠ '\x0c' := by rintro rfl; exact absurd h (by decide)
  rw [Json.escape, if_neg hq, if_neg hb, if_neg hn, if_neg hr, if_neg ht, if_neg h8, if_neg hc,
    if_neg (by omega)]

/-- A character stands for itself, has an escape of one letter, or is written by its code point. -/
lemma escape_cases (c : Char) : Json.escape c = [c] ∨
    (∃ e, Json.escape c = ['\\', e] ∧ isBreak e = false ∧ codeLength? e = none ∧
      simpleEscape? e = some c) ∨
    c.toNat < 0x20 ∧ Json.escape c = '\\' :: 'u' :: controlDigits c := by
  fun_cases Json.escape c
  case case8 hlt _ => exact Or.inr (Or.inr ⟨hlt, rfl⟩)
  case case9 => exact Or.inl rfl
  all_goals
    subst_vars
    exact Or.inr (Or.inl ⟨_, rfl, rfl, rfl, rfl⟩)

lemma readDoubleQuoted_escaped {c : Char} (h : Json.escape c ≠ [c]) (rest : List Char) (g : Gap)
    (acc : List Char) :
    readDoubleQuoted? 0 (Json.escape c ++ rest) g acc =
      readDoubleQuoted? 0 rest .none (c :: (g.folded ++ acc)) := by
  rcases escape_cases c with hsame | ⟨e, hescape, hbreak, hcode, hsimple⟩ | ⟨hlt, hescape⟩
  · exact absurd hsame h
  · rw [hescape]
    exact readDoubleQuoted_simple rest g acc hbreak hcode hsimple
  · rw [hescape]
    exact readDoubleQuoted_control hlt rest g acc

lemma isBlank_eq {c : Char} (h : c ≠ '\t') : isBlank c = decide (c = ' ') := by
  rw [isBlank, beq_eq_decide, beq_eq_decide, decide_eq_false h, Bool.or_false]

lemma isBreak_eq {c : Char} (hr : c ≠ '\r') (hn : c ≠ '\n') :
    isBreak c = (isSeparator c || c.toNat == 0x85) := by
  rw [isBreak, isSeparator, beq_eq_decide, beq_eq_decide, decide_eq_false hr, decide_eq_false hn,
    Bool.false_or, Bool.false_or, Bool.or_assoc, Bool.or_comm]

lemma isBreak_of_separator {c : Char} (h : isSeparator c = true) : isBreak c = true := by
  rw [isSeparator, Bool.or_eq_true] at h
  rw [isBreak, Bool.or_assoc, Bool.or_eq_true, Bool.or_eq_true (c.toNat == 0x2028)]
  exact Or.inr h

/-- One character of a quoted text, unless reading ends with it. -/
lemma readDoubleQuoted_escape {c : Char} {rest : List Char} {g : Gap} {acc : List Char}
    {out : List Char × List Char}
    (h : readDoubleQuoted? 0 (Json.escape c ++ rest) g acc = some out) :
    readDoubleQuoted? 0 rest (g.next c) (g.words c acc) = some out := by
  by_cases hesc : Json.escape c = [c]
  · have hq : c ≠ '"' := by rintro rfl; revert hesc; decide
    have hb : c ≠ '\\' := by rintro rfl; revert hesc; decide
    have hr : c ≠ '\r' := by rintro rfl; revert hesc; decide
    have hn : c ≠ '\n' := by rintro rfl; revert hesc; decide
    have ht : c ≠ '\t' := by rintro rfl; revert hesc; decide
    rw [hesc, List.singleton_append, readDoubleQuoted_raw rest g acc hr hb, isBlank_eq ht,
      isBreak_eq hr hn] at h
    unfold Gap.next Gap.words
    by_cases hs : c = ' '
    · simpa [hs] using h
    · by_cases hsep : (isSeparator c || c.toNat == 0x85) = true
      · simpa [hs, hsep, ← Bool.or_assoc] using h
      · rw [if_neg hs, if_neg hsep, if_neg (by simpa [hs] using hsep)]
        rw [if_neg (by simpa using hs), if_neg hsep] at h
        split at h
        · cases h
        · exact h
  · rw [readDoubleQuoted_escaped hesc] at h
    have hs : c ≠ ' ' := by rintro rfl; exact hesc (by decide)
    have hsep : (isSeparator c || c.toNat == 0x85) = false := by
      by_contra hsep
      rw [Bool.not_eq_false, isSeparator, Bool.or_eq_true, Bool.or_eq_true, beq_iff_eq, beq_iff_eq,
        beq_iff_eq] at hsep
      apply hesc
      apply escape_of_raw
      · rintro rfl
        revert hsep
        decide
      · rintro rfl
        revert hsep
        decide
      · omega
    unfold Gap.next Gap.words
    rw [if_neg hs, if_neg (by simp [hsep]), if_neg (by simp [hs, hsep])]
    exact h

lemma readDoubleQuoted_quote {s rest : List Char} {g : Gap} {acc : List Char}
    {out : List Char × List Char}
    (h : readDoubleQuoted? 0 (s.flatMap Json.escape ++ '"' :: rest) g acc = some out) :
    out = (unquoted s g acc, rest) := by
  induction s generalizing g acc with
  | nil =>
    rw [List.flatMap_nil, List.nil_append,
      readDoubleQuoted_raw rest g acc (by decide) (by decide)] at h
    have hmark : startsDocumentMark ('"' :: rest) = false :=
      startsDocumentMark_of_ne (by decide) (by decide) rest
    rw [if_neg (by decide), if_neg (by decide), hmark, Bool.and_false, if_neg (by decide),
      if_pos rfl, Option.some.injEq] at h
    exact h.symm
  | cons c s ih =>
    rw [List.flatMap_cons, List.append_assoc] at h
    exact ih (readDoubleQuoted_escape h)

/-! ### What quotes keep -/

lemma length_folded_next_le (g : Gap) (c : Char) (acc : List Char) :
    ((g.next c).folded ++ g.words c acc).length ≤ (g.folded ++ acc).length + 1 := by
  obtain ⟨blanks, broken, lead, trail, column⟩ := g
  unfold Gap.next Gap.words
  by_cases hs : c = ' '
  · cases broken <;> simp [hs, Gap.blank, Gap.folded]
  · by_cases hsep : (isSeparator c || c.toNat == 0x85) = true
    · rw [if_neg hs, if_pos hsep, if_pos (by simpa [hs] using hsep)]
      cases broken
      · simp only [Gap.break_, Gap.folded, Bool.false_eq_true, if_false, if_true, List.length_append]
        split <;> simp <;> omega
      · cases lead with
        | none => simp [Gap.break_, Gap.folded]
        | some d =>
          simp only [Gap.break_, Gap.folded, if_true, List.length_append]
          split
          · cases trail <;> simp
            omega
          · simp
            omega
    · rw [if_neg hs, if_neg hsep, if_neg (by simpa [hs] using hsep)]
      simp [Gap.none, Gap.folded]

lemma length_unquoted_le (s : List Char) (g : Gap) (acc : List Char) :
    (unquoted s g acc).length ≤ (g.folded ++ acc).length + s.length := by
  induction s generalizing g acc with
  | nil => rw [unquoted, List.length_reverse, List.length_nil, Nat.add_zero]
  | cons c rest ih =>
    have hrest := ih (g.next c) (g.words c acc)
    have hstep := length_folded_next_le g c acc
    rw [unquoted, List.length_cons]
    omega

/-- What the white space is after a text with the given last character. -/
inductive GapAfter : Char → Gap → Prop
  | word {c : Char} (hs : c ≠ ' ') (hsep : isSeparator c = false) : GapAfter c .none
  | blank {g : Gap} (hb : g.broken = false) (hs : g.blanks ≠ []) : GapAfter ' ' g
  | break_ {c d : Char} {g : Gap} (hc : isSeparator c = true) (hb : g.broken = true)
    (hl : g.lead = some d) (hd : d ≠ '\n') : GapAfter c g

lemma keptBreak_of_separator {c : Char} (h : isSeparator c = true) : keptBreak c = c := by
  rw [keptBreak, ← isSeparator, if_pos h]

lemma ne_newline_of_separator {c : Char} (h : isSeparator c = true) : c ≠ '\n' := by
  rintro rfl
  revert h
  decide

/-- A further character either comes back as it is, or may not stand there and something is lost. -/
def Gap.KeepsOrLoses (g : Gap) (prev c : Char) : Prop :=
  (MayAdjoin prev c ∧ GapAfter c (g.next c) ∧
    ∀ acc, (g.next c).folded ++ g.words c acc = c :: (g.folded ++ acc)) ∨
  (¬ MayAdjoin prev c ∧
    ∀ acc, ((g.next c).folded ++ g.words c acc).length < (g.folded ++ acc).length + 1)

section Stepping
variable {prev c : Char} {g : Gap}

lemma gap_step_space (hg : GapAfter prev g) : g.KeepsOrLoses prev ' ' := by
  have hnext : g.next ' ' = g.blank ' ' := if_pos rfl
  have hwords : ∀ acc, g.words ' ' acc = acc := fun acc => rfl
  unfold Gap.KeepsOrLoses
  rw [hnext]
  cases hg with
  | word hp hsep =>
    refine Or.inl ⟨⟨by simp [hp], by simp [hsep]⟩, .blank rfl (by simp [Gap.blank, Gap.none]), ?_⟩
    exact fun acc => rfl
  | blank hb hne =>
    refine Or.inl ⟨⟨by decide, by decide⟩, .blank ?_ ?_, ?_⟩
    · simp [Gap.blank, hb]
    · simp [Gap.blank, hb]
    · intro acc
      simp [hwords, Gap.blank, Gap.folded, hb]
  | break_ hp hb hl hd =>
    refine Or.inr ⟨fun h => h.2 ⟨hp, rfl⟩, fun acc => ?_⟩
    have hsame : (g.blank ' ').folded = g.folded := by simp [Gap.blank, Gap.folded, hb]
    rw [hwords, hsame]
    omega

lemma gap_step_separator (hg : GapAfter prev g) (hs : c ≠ ' ') (hsep : isSeparator c = true) :
    g.KeepsOrLoses prev c := by
  have hnext : g.next c = g.break_ c := by
    rw [Gap.next, if_neg hs, if_pos (by simp [hsep]), keptBreak_of_separator hsep]
  have hwords : ∀ acc, g.words c acc = acc := fun acc => if_pos (by simp [hsep])
  have hnl := ne_newline_of_separator hsep
  unfold Gap.KeepsOrLoses
  rw [hnext]
  cases hg with
  | word hp hpsep =>
    refine Or.inl ⟨⟨by simp [hp], by simp [hs]⟩, .break_ hsep rfl rfl hnl, ?_⟩
    intro acc
    rw [hwords]
    simp [Gap.break_, Gap.none, Gap.folded, hnl]
  | blank hb hne =>
    refine Or.inr ⟨fun h => h.1 ⟨rfl, hsep⟩, fun acc => ?_⟩
    have hpos := List.length_pos_iff.mpr hne
    simp only [hwords, Gap.break_, Gap.folded, hb, hnl, Bool.false_eq_true, if_false, if_true,
      List.nil_append, List.length_append, List.length_singleton]
    omega
  | break_ hp hb hl hd =>
    have hpne : prev ≠ ' ' := by
      rintro rfl
      revert hp
      decide
    refine Or.inl ⟨⟨by simp [hpne], by simp [hs]⟩, .break_ hsep ?_ ?_ hd, ?_⟩
    · simp [Gap.break_, hb]
    · simpa [Gap.break_, hb] using hl
    · intro acc
      simp [hwords, Gap.break_, Gap.folded, hb, hl, hd]

lemma gap_step_word (prev : Char) (g : Gap) (hs : c ≠ ' ') (hsep : isSeparator c = false)
    (hc : c ≠ '\u0085') : g.KeepsOrLoses prev c := by
  have hnel : (c.toNat == 0x85) = false := by
    rw [beq_eq_false_iff_ne]
    intro h
    exact hc (Char.toNat_inj.mp h)
  refine Or.inl ⟨⟨by simp [hsep], by simp [hs]⟩, ?_, ?_⟩
  · rw [Gap.next, if_neg hs, if_neg (by simp [hsep, hnel])]
    exact .word hs hsep
  · intro acc
    rw [Gap.next, Gap.words, if_neg hs, if_neg (by simp [hsep, hnel]),
      if_neg (by simp [hs, hsep, hnel])]
    rfl

lemma gap_step (hg : GapAfter prev g) (hc : c ≠ '\u0085') : g.KeepsOrLoses prev c := by
  by_cases hs : c = ' '
  · exact hs ▸ gap_step_space hg
  · cases hsep : isSeparator c with
    | true => exact gap_step_separator hg hs hsep
    | false => exact gap_step_word prev g hs hsep hc

end Stepping

lemma unquoted_eq_iff {prev : Char} {g : Gap} (hg : GapAfter prev g) {s : List Char}
    (hs : '\u0085' ∉ s) (acc : List Char) :
    unquoted s g acc = (g.folded ++ acc).reverse ++ s ↔ (prev :: s).IsChain MayAdjoin := by
  induction s generalizing prev g acc with
  | nil => simp [unquoted]
  | cons c rest ih =>
    rw [List.mem_cons, not_or] at hs
    rw [unquoted, List.isChain_cons_cons]
    rcases gap_step hg (Ne.symm hs.1) with ⟨hmay, hafter, hkept⟩ | ⟨hmay, hlost⟩
    · have hnext := ih hafter hs.2 (g.words c acc)
      rw [hkept, List.reverse_cons, List.append_assoc, List.singleton_append] at hnext
      simpa only [hmay, true_and] using hnext
    · constructor
      · intro heq
        have hbound := length_unquoted_le rest (g.next c) (g.words c acc)
        have hlt := hlost acc
        rw [heq, List.length_append, List.length_reverse, List.length_cons] at hbound
        omega
      · intro h
        exact absurd h.1 hmay

def Gap.LacksNextLine (g : Gap) : Prop :=
  '\u0085' ∉ g.blanks ∧ g.lead ≠ some '\u0085' ∧ '\u0085' ∉ g.trail

lemma keptBreak_ne_nextLine (c : Char) : keptBreak c ≠ '\u0085' := by
  unfold keptBreak
  split
  · rintro rfl
    rename_i h
    revert h
    decide
  · decide

lemma nextLine_notMem_folded {g : Gap} (h : g.LacksNextLine) : '\u0085' ∉ g.folded := by
  obtain ⟨hblanks, hlead, htrail⟩ := h
  unfold Gap.folded
  split
  · cases hl : g.lead with
    | none => exact htrail
    | some d =>
      rw [hl, Ne, Option.some.injEq] at hlead
      dsimp only
      split
      · split
        · decide
        · exact htrail
      · simp [htrail, Ne.symm hlead]
  · exact hblanks

lemma lacksNextLine_next {g : Gap} (h : g.LacksNextLine) (c : Char) :
    (g.next c).LacksNextLine := by
  obtain ⟨hblanks, hlead, htrail⟩ := h
  have hkept := keptBreak_ne_nextLine c
  unfold Gap.next
  split
  · cases hb : g.broken <;> simp [Gap.LacksNextLine, Gap.blank, hb, hblanks, hlead, htrail]
  · split
    · cases hb : g.broken <;>
        simp [Gap.LacksNextLine, Gap.break_, hb, hblanks, hlead, htrail, hkept, hkept.symm]
    · simp [Gap.LacksNextLine, Gap.none]

lemma nextLine_notMem_words {g : Gap} (h : g.LacksNextLine) (c : Char) {acc : List Char}
    (hacc : '\u0085' ∉ acc) : '\u0085' ∉ g.words c acc := by
  unfold Gap.words
  split
  · exact hacc
  · rename_i hc
    have hne : '\u0085' ≠ c := by
      rintro rfl
      exact hc (by decide)
    simp [hne, nextLine_notMem_folded h, hacc]

lemma nextLine_notMem_unquoted (s : List Char) {g : Gap} (h : g.LacksNextLine) {acc : List Char}
    (hacc : '\u0085' ∉ acc) : '\u0085' ∉ unquoted s g acc := by
  induction s generalizing g acc with
  | nil => simp [unquoted, nextLine_notMem_folded h, hacc]
  | cons c rest ih => exact ih (lacksNextLine_next h c) (nextLine_notMem_words h c hacc)

/-- Quotes keep exactly the texts without next line characters and without spaces beside
separators. -/
theorem unquoted_eq_self_iff (s : List Char) : unquoted s .none [] = s ↔ KeptByQuotes s := by
  have hchain : ('a' :: s).IsChain MayAdjoin ↔ s.IsChain MayAdjoin := by
    cases s with
    | nil => simp
    | cons c rest =>
      have hfirst : MayAdjoin 'a' c :=
        ⟨by simp, by simp [show isSeparator 'a' = false by decide]⟩
      simp [List.isChain_cons_cons, hfirst]
  have hstart : GapAfter 'a' .none := .word (by decide) (by decide)
  have hexact : '\u0085' ∉ s → (unquoted s .none [] = s ↔ s.IsChain MayAdjoin) := by
    intro hs
    rw [← hchain, ← unquoted_eq_iff hstart hs []]
    rfl
  constructor
  · intro heq
    have hs : '\u0085' ∉ s := by
      rw [← heq]
      apply nextLine_notMem_unquoted s _ List.not_mem_nil
      exact ⟨List.not_mem_nil, by decide, List.not_mem_nil⟩
    exact ⟨hs, (hexact hs).mp heq⟩
  · intro hkept
    exact (hexact hkept.1).mpr hkept.2

end WorkflowOperator.Yaml
