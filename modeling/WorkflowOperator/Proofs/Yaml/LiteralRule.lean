import WorkflowOperator.Proofs.Text.Lines
import WorkflowOperator.Proofs.Yaml.Literal

/-!
# Literal blocks without loss

What a literal block stands for has a simple rule. It goes as far as there is no text in column 0, of
each line that is not empty the indentation is taken away, and the last line feed is dropped unless it
is to be kept. A text comes back by this rule from the block that is written for it, and if it has no
line break but line feeds the reader of blocks gives back the same.
-/

namespace WorkflowOperator.Yaml

open Text

/-! ### The rule -/

/-- The lines of a text that are ended by a line feed, and what stands after the last of them unless
nothing does. -/
def endedLines (s : List Char) : List (List Char) :=
  if (splitLines s).getLast? = some [] then (splitLines s).dropLast else splitLines s

def isUnindented (line : List Char) : Bool := line.head?.any fun c => !isBlank c

/-- What a literal block with an indentation and a chomping indicator stands for, if the given text
follows its header. -/
def literalValue? (indent : List Char) (sign : Char) (s : List Char) : Option (List Char) :=
  (((endedLines s).takeWhile fun line => !isUnindented line).mapM (outdentLine? indent)).map
    fun lines =>
      let ended := lines.flatMap fun line => line ++ ['\n']
      if sign = '-' then ended.dropLast else ended

lemma endedLines_append (s tail : List Char) :
    endedLines (s ++ '\n' :: tail) = splitLines s ++ endedLines tail := by
  have hne : splitLines tail ≠ [] := parts_ne_nil '\n' tail
  have hsplit : splitLines (s ++ '\n' :: tail) = splitLines s ++ splitLines tail := parts_append
  rw [endedLines, endedLines, hsplit, List.getLast?_append_of_ne_nil _ hne,
    List.dropLast_append_of_ne_nil hne]
  split <;> rfl

lemma takeWhile_endedLines {tail : List Char} (htail : EndsBlock tail) :
    (endedLines tail).takeWhile (fun line => !isUnindented line) = [] := by
  cases tail with
  | nil => rfl
  | cons c rest =>
    obtain ⟨hblank, hbreak⟩ := htail c rfl
    have hc : c ≠ '\n' := by
      rintro rfl
      exact absurd hbreak (by decide)
    obtain ⟨first, more, hrest⟩ := List.exists_cons_of_ne_nil (parts_ne_nil '\n' rest)
    have hsplit : splitLines (c :: rest) = (c :: first) :: more := parts_cons_of_ne hc hrest
    have hended : ∃ later, endedLines (c :: rest) = (c :: first) :: later := by
      rw [endedLines, hsplit]
      cases more with
      | nil => exact ⟨[], rfl⟩
      | cons second more =>
        split
        · exact ⟨_, List.dropLast_cons_cons⟩
        · exact ⟨_, rfl⟩
    obtain ⟨later, hended⟩ := hended
    rw [hended, List.takeWhile_cons_of_neg]
    simp [isUnindented, hblank]

lemma takeWhile_indented {indent : List Char} (h : ∀ c ∈ indent, isBlank c = true) (hne : indent ≠ [])
    (lines later : List (List Char)) :
    ((lines.map (indentLine indent)) ++ later).takeWhile (fun line => !isUnindented line) =
      lines.map (indentLine indent) ++ later.takeWhile fun line => !isUnindented line := by
  refine List.takeWhile_append_of_pos fun line hline => ?_
  obtain ⟨l, -, rfl⟩ := List.mem_map.mp hline
  obtain ⟨c, rest, rfl⟩ := List.exists_cons_of_ne_nil hne
  unfold indentLine
  split
  · rfl
  · simp [isUnindented, h c List.mem_cons_self]

lemma splitLines_indented (s : List Char) :
    splitLines (indented true s) = (splitLines s).map (indentLine blockIndent.toList) := by
  have hfeed : '\n' ∉ blockIndent.toList := by decide
  have hindent := splitLines_reindent hfeed (String.ofList s)
  rwa [toList_reindent, String.toList_ofList] at hindent

lemma empty_or_indented {s line : List Char} (h : line ∈ splitLines (indented true s)) :
    line = [] ∨ blockIndent.toList <+: line := by
  rw [splitLines_indented] at h
  obtain ⟨l, -, rfl⟩ := List.mem_map.mp h
  unfold indentLine
  split
  · exact Or.inl rfl
  · exact Or.inr (List.prefix_append _ _)

/-- The rule gives back the text that was indented. -/
lemma literalValue_indented {s tail : List Char} (htail : EndsBlock tail) (sign : Char) :
    literalValue? blockIndent.toList sign (indented true (s ++ ['\n']) ++ tail) =
      some (if sign = '-' then s else s ++ ['\n']) := by
  have hblank : ∀ c ∈ blockIndent.toList, isBlank c = true := List.all_eq_true.mp (by decide)
  have hended : (endedLines (indented true (s ++ ['\n']) ++ tail)).takeWhile
      (fun line => !isUnindented line) = (splitLines s).map (indentLine blockIndent.toList) := by
    rw [indented_append_newline, List.append_assoc, List.singleton_append, endedLines_append,
      splitLines_indented, takeWhile_indented hblank (by decide), takeWhile_endedLines htail,
      List.append_nil]
  rw [literalValue?, hended, mapM_outdentLine, Option.map_some]
  dsimp only
  rw [flatMap_splitLines, List.dropLast_concat]

lemma exists_blockLines (body : List Char) : ∃ s, blockLines body = s ++ ['\n'] ∧
    (if blockSign body = '-' then s else s ++ ['\n']) = body := by
  unfold blockLines blockSign
  by_cases h : body.getLast? = some '\n'
  · obtain ⟨s, hs⟩ := List.getLast?_eq_some_iff.mp h
    refine ⟨s, ?_, ?_⟩
    · rw [if_pos h, hs]
    · rw [if_pos h, if_neg (by decide), hs]
  · refine ⟨body, if_neg h, ?_⟩
    rw [if_neg h, if_pos rfl]

/-! ### The reader -/

def HasOnlyLineFeeds (s : List Char) : Prop := ∀ c ∈ s, isBreak c = true → c = '\n'

instance : DecidablePred HasOnlyLineFeeds := fun s =>
  decidable_of_iff ((s.all fun c => !isBreak c || c == '\n') = true) (by
    simp [HasOnlyLineFeeds, or_iff_not_imp_left])

namespace HasOnlyLineFeeds

variable {s : List Char}

lemma notMem (h : HasOnlyLineFeeds s) {c : Char} (hbreak : isBreak c = true) (hc : c ≠ '\n') :
    c ∉ s := fun hmem => hc (h c hmem hbreak)

lemma isSeparator_eq_false (h : HasOnlyLineFeeds s) {c : Char} (hc : c ∈ s) :
    isSeparator c = false := by
  by_contra hsep
  rw [Bool.not_eq_false] at hsep
  exact ne_newline_of_separator hsep (h c hc (isBreak_of_separator hsep))

lemma keptByBlock (h : HasOnlyLineFeeds s) : KeptByBlock s := by
  refine ⟨h.notMem (by decide) (by decide), h.notMem (by decide) (by decide), ?_, ?_⟩
  · refine (List.pairwise_of_forall_mem_list fun a ha b _ hsep => ?_).isChain
    rw [h.isSeparator_eq_false ha] at hsep
    cases hsep
  · exact fun c hc => h.isSeparator_eq_false (List.mem_of_getLast? hc)

lemma blockLines (h : HasOnlyLineFeeds s) : HasOnlyLineFeeds (blockLines s) := by
  intro c hc hbreak
  unfold Yaml.blockLines at hc
  split at hc
  · exact h c hc hbreak
  · rcases List.mem_append.mp hc with hc | hc
    · exact h c hc hbreak
    · exact List.mem_singleton.mp hc

end HasOnlyLineFeeds

section
variable {tail : List Char} (htail : EndsBlock tail)
include htail

lemma exists_readBlockLead {v : List Char} (hv : HasOnlyLineFeeds v) (widest : Nat)
    (breaks : List Char) : ∃ lead,
      readBlockLead? (some 2) (indented true v ++ tail) 0 widest breaks = some lead := by
  induction v generalizing widest breaks with
  | nil => exact ⟨_, readBlockLead_tail htail widest breaks⟩
  | cons c v ih =>
    by_cases hn : c = '\n'
    · rw [hn, indented_newline, List.cons_append, readBlockLead_break (by decide) (by decide)]
      exact ih (fun d hd => hv d (List.mem_cons_of_mem c hd)) _ _
    · have hbreak : isBreak c = false :=
        Bool.eq_false_iff.mpr fun hbreak => hn (hv c List.mem_cons_self hbreak)
      rw [indented_true_cons hn, List.cons_append, List.cons_append, List.cons_append,
        readBlockLead_space _ (by decide), readBlockLead_space _ (by decide),
        readBlockLead_stop hbreak (by omega)]
      exact ⟨_, rfl⟩

/-- The lines of an indented text can be read, by induction on its length. -/
lemma exists_readBlockLines {v : List Char} (hv : HasOnlyLineFeeds v) (hwhole : WholeLines .fresh v)
    {lead : BlockLead}
    (hlead : readBlockLead? (some 2) (indented true v ++ tail) 0 0 [] = some lead) (b : BlockText) :
    ∃ out, readBlockLines? false 2 lead.column lead.rest b = some out := by
  induction hk : v.length using Nat.strongRecOn generalizing v lead b with
  | ind k ih =>
    cases readBlockLead_indented htail hwhole (by decide) (by decide) hlead with
    | ended added hrest hcolumn hbreaks hunind =>
      exact ⟨_, readBlockLines_stop b (Or.inr (by omega))⟩
    | short added c r hrest hcolumn hbreaks hunind hnot =>
      exact ⟨_, readBlockLines_stop b (Or.inr hcolumn)⟩
    | line added c r hc hsuffix hrest hcolumn hbreaks hunind =>
      obtain ⟨word, d, v', hword, hwords, hd, hwhole'⟩ := hwhole.exists_line hsuffix (by simp)
      have hmem : ∀ e ∈ d :: v', e ∈ v :=
        fun e he => hsuffix.subset (hword ▸ List.mem_append_right word he)
      have hfeed : d = '\n' := hd.resolve_right fun hsep => by
        rw [hv.isSeparator_eq_false (hmem d List.mem_cons_self)] at hsep
        cases hsep
      subst hfeed
      cases word with
      | nil =>
        rw [List.nil_append, List.cons.injEq] at hword
        rw [hword.1] at hc
        exact absurd hc (by decide)
      | cons c' word =>
        have hcn : c ≠ '\n' := by
          rintro rfl
          exact absurd hc (by decide)
        have hrest' : lead.rest = c' :: word ++ '\n' :: (indented true v' ++ tail) := by
          rw [hrest, ← List.cons_append, ← indented_false_cons hcn, hword, indented_word hwords]
          simp
        have hv' : HasOnlyLineFeeds v' :=
          fun e he => hv e (hmem e (List.mem_cons_of_mem _ he))
        have hlength : v'.length < k := by
          have hle := hsuffix.length_le
          rw [hword, List.length_append, List.length_cons, List.length_cons] at hle
          omega
        obtain ⟨lead', hlead'⟩ := exists_readBlockLead htail hv' 0 []
        rw [hcolumn, hrest', readBlockLines_line hwords (by decide) (by decide), hlead']
        exact ih _ hlength hv' hwhole' hlead' _ rfl

end

/-- A block for a text whose only line breaks are line feeds is read as this text, and reading stops
where the block ends. -/
lemma readBlock_of_hasOnlyLineFeeds {body tail : List Char} (hbody : HasOnlyLineFeeds body)
    (htail : EndsBlock tail) :
    readBlock? false 0 ('2' :: blockSign body :: '\n' ::
      (indented true (blockLines body) ++ tail)) = some (body, tail) := by
  have hkept := hbody.keptByBlock
  obtain ⟨lead, hlead⟩ := exists_readBlockLead htail hbody.blockLines 0 []
  obtain ⟨out, hout⟩ := exists_readBlockLines htail hbody.blockLines
    (wholeLines_blockLines hkept.1 hkept.2.1) hlead ⟨[], none, lead.breaks, false⟩
  obtain ⟨result, hresult⟩ : ∃ result, readBlock? false 0 ('2' :: blockSign body :: '\n' ::
      (indented true (blockLines body) ++ tail)) = some result := by
    rw [readBlock_header, hlead, Option.bind_some, hout]
    exact ⟨_, rfl⟩
  obtain ⟨htext, hrest⟩ := readBlock_literal htail hresult
  rw [hresult, Option.some.injEq]
  exact Prod.ext (htext.mpr hkept) (hrest hkept)

/-- Literal blocks lose nothing. Every line of a block is empty or indented; by the rule for literal
blocks it stands for the text that it was written for, up to the end or to text in column 0; and the
reader of blocks gives back this text and stops there. And whatever a text is indented with that has no
line feed, its lines come back without it. -/
theorem literal_blocks_lose_nothing :
    (∀ key body : String, body ≠ "" → HasOnlyLineFeeds body.toList →
      ∀ tail : List Char, EndsBlock tail → ∃ block : List Char,
        let sign := if body.toList.getLast? = some '\n' then '+' else '-'
        (literalBlock key body).toList = key.toList ++ ": |2".toList ++ sign :: '\n' :: block ∧
        (∀ line ∈ splitLines block, line = [] ∨ blockIndent.toList <+: line) ∧
        literalValue? blockIndent.toList sign (block ++ tail) = some body.toList ∧
        readBlock? false 0 ('2' :: sign :: '\n' :: (block ++ tail)) = some (body.toList, tail)) ∧
    ∀ indent text : String, '\n' ∉ indent.toList →
      (splitLines (reindent indent text).toList).mapM (outdentLine? indent.toList) =
        some (splitLines text.toList) := by
  refine ⟨?_, ?_⟩
  · intro key body _ hbody tail htail
    refine ⟨indented true (blockLines body.toList), ?_⟩
    dsimp only
    rw [← blockSign]
    refine ⟨?_, fun line => empty_or_indented, ?_, ?_⟩
    · rw [toList_literalBlock]
      simp
    · obtain ⟨s, hs, hvalue⟩ := exists_blockLines body.toList
      rw [hs, literalValue_indented htail, hvalue]
    · exact readBlock_of_hasOnlyLineFeeds hbody htail
  · intro indent text hindent
    rw [splitLines_reindent hindent, mapM_outdentLine]

/-- A block with an indented first line, empty lines, a line of a tab, a comment, a mark between
documents and three line feeds at its end loses nothing, and neither does an indentation of a tab. -/
theorem uneven_block_loses_nothing :
    (∃ block : List Char,
      (literalBlock "script" "  a: b\n\n\t\n# c\n---\n\n\n").toList =
        "script: |2+\n".toList ++ block ∧
      literalValue? [' ', ' '] '+' (block ++ "d: e\n".toList) =
        some "  a: b\n\n\t\n# c\n---\n\n\n".toList ∧
      readBlock? false 0 ('2' :: '+' :: '\n' :: (block ++ "d: e\n".toList)) =
        some ("  a: b\n\n\t\n# c\n---\n\n\n".toList, "d: e\n".toList)) ∧
    (splitLines (reindent "\t" "a\n\n b").toList).mapM (outdentLine? ['\t']) =
      some ["a".toList, [], " b".toList] := by
  refine ⟨?_, literal_blocks_lose_nothing.2 "\t" "a\n\n b" (by decide)⟩
  have hend : EndsBlock "d: e\n".toList := by
    rintro c ⟨⟩
    decide
  obtain ⟨block, htext, -, hvalue, hread⟩ := literal_blocks_lose_nothing.1 "script"
    "  a: b\n\n\t\n# c\n---\n\n\n" (by decide) (by decide) "d: e\n".toList hend
  exact ⟨block, htext, hvalue, hread⟩

end WorkflowOperator.Yaml
