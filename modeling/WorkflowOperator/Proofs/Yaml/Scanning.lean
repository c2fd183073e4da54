import WorkflowOperator.Proofs.Template.Rendering
import WorkflowOperator.Proofs.Yaml.Literal
import WorkflowOperator.Proofs.Yaml.Position
import WorkflowOperator.Proofs.Yaml.Settled

/-!
# From lines to tokens

What the reader of tokens does with a line of a block mapping. Between two lines it is at a column with
some block collections open and no key begun. A key and its colon become three tokens, which a mark for
the start of a mapping precedes if the key stands further right than the open collections.
-/

namespace WorkflowOperator.Yaml

open Template Text

/-! ### Characters of keys and numbers -/

/-- The characters of keys and of words that stand for themselves: letters, digits, `_` and `-`. -/
def isKeyChar (c : Char) : Bool := isWordChar c || c == '-'

lemma isKeyChar_of_isWordChar {c : Char} (h : isWordChar c = true) : isKeyChar c = true := by
  rw [isKeyChar, h]
  rfl

lemma toNat_lt_of_isKeyChar {c : Char} (h : isKeyChar c = true) : c.toNat < 0x80 := by
  have hle : ∀ d : Char, d.toNat < 0x80 → c ≤ d → c.toNat < 0x80 := by
    intro d hd hcd
    have hnat : c.toNat ≤ d.toNat := hcd
    omega
  simp only [isKeyChar, isWordChar, isAsciiAlphanumeric, Bool.or_eq_true, Bool.and_eq_true,
    beq_iff_eq, decide_eq_true_eq] at h
  rcases h with (((h | h) | h) | rfl) | rfl
  · exact hle 'z' (by decide) h.2
  · exact hle 'Z' (by decide) h.2
  · exact hle '9' (by decide) h.2
  · decide
  · decide

lemma ne_of_isKeyChar {c d : Char} (h : isKeyChar c = true) (hd : isKeyChar d = false) : c ≠ d := by
  rintro rfl
  rw [h] at hd
  cases hd

lemma isBlank_of_isKeyChar {c : Char} (h : isKeyChar c = true) : isBlank c = false := by
  have hspace : c ≠ ' ' := ne_of_isKeyChar h (by decide)
  have htab : c ≠ '\t' := ne_of_isKeyChar h (by decide)
  simp [isBlank, hspace, htab]

lemma isBreak_of_isKeyChar {c : Char} (h : isKeyChar c = true) : isBreak c = false := by
  have hreturn : c ≠ '\r' := ne_of_isKeyChar h (by decide)
  have hfeed : c ≠ '\n' := ne_of_isKeyChar h (by decide)
  have hlt := toNat_lt_of_isKeyChar h
  simp only [isBreak, beq_false_of_ne hreturn, beq_false_of_ne hfeed, Bool.false_or,
    Bool.or_eq_false_iff, beq_eq_false_iff_ne]
  omega

namespace Reader

/-! ### One step of a reader -/

lemma dropStale_of_idle {r : Reader} (hcandidate : r.candidate = none)
    (hflow : r.outerCandidates = []) : r.dropStale? = some r := by
  obtain ⟨rest, position, tokens, indent, outer, candidate, outerCandidates, keyAllowed⟩ := r
  cases hcandidate
  cases hflow
  rfl

lemma settled_of_idle {r : Reader} (hcandidate : r.candidate = none)
    (hflow : r.outerCandidates = []) : r.settled = r.tokens.reverse := by
  unfold settled
  rw [hcandidate, hflow]
  change r.tokens.reverse.take r.tokens.length = _
  rw [← List.length_reverse, List.take_length]

lemma moveTo_append (r : Reader) (front : List Char) {rest : List Char} (h : r.rest = front ++ rest) :
    r.moveTo rest = { r with rest, position := r.position.after front } := by
  have htake : r.rest.take (r.rest.length - rest.length) = front := by
    rw [h, List.length_append, Nat.add_sub_cancel, List.take_left]
  rw [moveTo, htake]

lemma finish_of_step {r fresh next : Reader} (hfresh : r.dropStale? = some fresh)
    (hstep : fresh.step? = some next) (hend : next.tokens.head? ≠ some .streamEnd)
    (hshort : next.rest.length < r.rest.length) : r.finish = next.finish := by
  rw [finish, hfresh]
  simp only [hstep, if_neg hend, if_pos hshort]

lemma finish_of_failure {r fresh : Reader} (hfresh : r.dropStale? = some fresh)
    (hstep : fresh.step? = none) : r.finish = fresh.settled := by
  rw [finish, hfresh]
  simp only [hstep]

/-- The tokens of a reader that stops within so many steps. -/
def finishWithin? : Nat → Reader → Option (List Token)
  | 0, _ => none
  | steps + 1, r =>
    match r.dropStale? with
    | none => some r.settled
    | some fresh =>
      match fresh.step? with
      | none => some fresh.settled
      | some next =>
        if next.tokens.head? = some .streamEnd then some next.tokens.reverse
        else if next.rest.length < r.rest.length then finishWithin? steps next
        else some next.settled

lemma finish_of_finishWithin? {steps : Nat} {r : Reader} {ts : List Token}
    (h : finishWithin? steps r = some ts) : r.finish = ts := by
  induction steps generalizing r with
  | zero => cases h
  | succ steps ih =>
    rw [finishWithin?] at h
    rw [finish]
    cases hfresh : r.dropStale? with
    | none => rwa [hfresh, Option.some.injEq] at h
    | some fresh =>
      rw [hfresh] at h
      dsimp only at h ⊢
      cases hstep : fresh.step? with
      | none => rwa [hstep, Option.some.injEq] at h
      | some next =>
        rw [hstep] at h
        dsimp only at h ⊢
        split_ifs at h ⊢
        · exact Option.some.inj h
        · exact ih h
        · exact Option.some.inj h

lemma length_skipBlank_le (flow : Bool) (s : List Char) (inComment allowed : Bool) :
    (skipBlank flow s inComment allowed).1.length ≤ s.length := by
  fun_induction skipBlank flow s inComment allowed with
  | case1 => exact Nat.le_refl _
  | case2 => simp only [List.length_cons]; omega
  | case3 => simp only [List.length_cons]; omega
  | case4 => simp only [List.length_cons]; omega
  | case5 => simp only [List.length_cons]; omega
  | case6 => simp only [List.length_cons]; omega
  | case7 => exact Nat.le_refl _

/-! ### Which token a character starts -/

lemma dispatch_word {c : Char} (h : isWordChar c = true) (r : Reader) (rest : List Char) :
    r.dispatch? c rest = r.plainScalar? := by
  have hne : ∀ d : Char, isWordChar d = false → (c == d) = false := by
    intro d hd
    refine beq_false_of_ne ?_
    rintro rfl
    rw [h] at hd
    cases hd
  have hkey := isKeyChar_of_isWordChar h
  have hdash : startsMark '-' (c :: rest) = false :=
    startsMark_of_ne (by rintro rfl; cases h) rest
  have hdot : startsMark '.' (c :: rest) = false :=
    startsMark_of_ne (by rintro rfl; cases h) rest
  have hplain : startsPlain r.inFlow c rest = true := by
    have hsigns : ([',', '[', ']', Char.ofNat 0x7B, Char.ofNat 0x7D, '#', '&', '*', '!', '|', '>',
        '\'', '"', '%', '@', '\x60'].all fun d => !isWordChar d) = true := by decide
    have hmem : c ∉ [',', '[', ']', Char.ofNat 0x7B, Char.ofNat 0x7D, '#', '&', '*', '!', '|', '>',
        '\'', '"', '%', '@', '\x60'] := by
      intro hc
      have hsign := List.all_eq_true.mp hsigns c hc
      rw [h] at hsign
      cases hsign
    unfold startsPlain
    simp only [hne '-' (by decide), hne '?' (by decide), hne ':' (by decide),
      isBlank_of_isKeyChar hkey, isBreak_of_isKeyChar hkey, hmem]
    rfl
  unfold dispatch?
  simp only [hdash, hdot, hplain, hne '%' (by decide), hne '[' (by decide),
    hne (Char.ofNat 0x7B) (by decide), hne ']' (by decide), hne (Char.ofNat 0x7D) (by decide),
    hne ',' (by decide), hne '-' (by decide), hne '?' (by decide), hne ':' (by decide),
    hne '*' (by decide), hne '&' (by decide), hne '!' (by decide), hne '|' (by decide),
    hne '>' (by decide), hne '\'' (by decide), hne '"' (by decide), Bool.and_false, Bool.false_and,
    Bool.false_eq_true, if_false, if_true]

lemma dispatch_quote (r : Reader) (rest : List Char) :
    r.dispatch? '"' rest = r.quotedScalar? .doubleQuoted := by
  simp [dispatch?, startsMark_of_ne]

lemma dispatch_bar {r : Reader} (h : r.inFlow = false) (rest : List Char) :
    r.dispatch? '|' rest = r.blockScalar? .literal := by
  simp [dispatch?, startsMark_of_ne, h]

lemma dispatch_colon {r : Reader} {rest : List Char}
    (h : r.inFlow = true ∨ startsBlank rest = true) : r.dispatch? ':' rest = r.value? := by
  simp [dispatch?, startsMark_of_ne, h]

lemma dispatch_open (r : Reader) (rest : List Char) :
    r.dispatch? '{' rest = r.openFlow? .flowMappingStart := by
  simp [dispatch?, startsMark_of_ne]

lemma dispatch_close (r : Reader) (rest : List Char) :
    r.dispatch? '}' rest = r.closeFlow? .flowMappingEnd := by
  simp [dispatch?, startsMark_of_ne]

lemma dispatch_comma (r : Reader) (rest : List Char) : r.dispatch? ',' rest = r.flowEntry? := by
  simp [dispatch?, startsMark_of_ne]

/-! ### Where the next token is -/

/-- Outside of flow collections and with no key begun, the next token of a reader is read from a text
at a column, with these block collections open; the flag says whether it may be a key. -/
structure At (r : Reader) (rest : List Char) (column : Nat) (allowed : Bool) (indent : Int)
    (outer : List Int) (tokens : List Token) : Prop where
  text_eq : r.toNextToken.rest = rest
  column_eq : r.toNextToken.position.column = column
  allowed_eq : r.toNextToken.keyAllowed = allowed
  candidate : r.candidate = none
  flow : r.outerCandidates = []
  blocks : closing (column : Int) r.indent r.outer r.tokens = (indent, outer, tokens)
  noEnd : .streamEnd ∉ r.tokens

/-- A reader outside of flow collections and with no key begun. -/
def idle (rest : List Char) (p : Position) (allowed : Bool) (indent : Int) (outer : List Int)
    (tokens : List Token) : Reader :=
  ⟨rest, p, tokens, indent, outer, none, [], allowed⟩

@[simp] lemma rest_idle (rest : List Char) (p : Position) (allowed : Bool) (indent : Int)
    (outer : List Int) (tokens : List Token) :
    (idle rest p allowed indent outer tokens).rest = rest := rfl

@[simp] lemma tokens_idle (rest : List Char) (p : Position) (allowed : Bool) (indent : Int)
    (outer : List Int) (tokens : List Token) :
    (idle rest p allowed indent outer tokens).tokens = tokens := rfl

/-- Reads the token at the front of a reader that has nothing to skip or to close. -/
def read? (r : Reader) : Option Reader :=
  match r.rest with
  | [] => r.atEnd?
  | c :: rest => r.dispatch? c rest

section
variable {r : Reader} {rest : List Char} {column : Nat} {allowed : Bool} {indent : Int}
  {outer : List Int} {tokens : List Token}

lemma length_toNextToken_le (r : Reader) : r.toNextToken.rest.length ≤ r.rest.length := by
  unfold toNextToken
  dsimp only
  split
  · refine Nat.le_trans (length_skipBlank_le _ _ _ _) ?_
    simp [moveTo]
  · exact length_skipBlank_le _ _ _ _

lemma toNextToken_eq (r : Reader) :
    r.toNextToken = ⟨r.toNextToken.rest, r.toNextToken.position, r.tokens, r.indent, r.outer,
      r.candidate, r.outerCandidates, r.toNextToken.keyAllowed⟩ := by
  unfold toNextToken
  dsimp only
  split <;> rfl

lemma At.step (h : r.At rest column allowed indent outer tokens) :
    ∃ p : Position, p.column = column ∧
      r.step? = (idle rest p allowed indent outer tokens).read? := by
  refine ⟨r.toNextToken.position, h.column_eq, ?_⟩
  have hnext := r.toNextToken_eq
  rw [h.text_eq, h.allowed_eq, h.candidate, h.flow] at hnext
  have hfresh : r.toNextToken.dropStale? = some r.toNextToken :=
    dropStale_of_idle (by rw [hnext]) (by rw [hnext])
  have hclose : r.toNextToken.closeBlocks r.toNextToken.position.column =
      idle rest r.toNextToken.position allowed indent outer tokens := by
    unfold closeBlocks
    rw [h.column_eq, hnext]
    simp only [inFlow, List.isEmpty_nil, Bool.not_true, Bool.false_eq_true, if_false, h.blocks]
    rfl
  unfold step?
  rw [hfresh]
  change (r.toNextToken.closeBlocks r.toNextToken.position.column).read? = _
  rw [hclose]

lemma At.length_le (h : r.At rest column allowed indent outer tokens) :
    rest.length ≤ r.rest.length := h.text_eq ▸ r.length_toNextToken_le

lemma At.finish_eq {next : Reader} (h : r.At rest column allowed indent outer tokens)
    (hstep : r.step? = some next) (hend : next.tokens.head? ≠ some .streamEnd)
    (hshort : next.rest.length < rest.length) : r.finish = next.finish :=
  finish_of_step (dropStale_of_idle h.candidate h.flow) hstep hend
    (Nat.lt_of_lt_of_le hshort h.length_le)

/-- A step that fails leaves the text without its end. -/
lemma At.streamEnd_notMem (h : r.At rest column allowed indent outer tokens)
    (hstep : r.step? = none) : .streamEnd ∉ r.finish := by
  rw [finish_of_failure (dropStale_of_idle h.candidate h.flow) hstep,
    settled_of_idle h.candidate h.flow, List.mem_reverse]
  exact h.noEnd


lemma closing_of_le {column indent : Int} (h : indent ≤ column) (outer : List Int)
    (tokens : List Token) : closing column indent outer tokens = (indent, outer, tokens) := by
  have hnot : ¬ column < indent := by omega
  cases outer with
  | nil => rw [closing, if_neg hnot]
  | cons next outer => rw [closing, if_neg hnot]

lemma closing_fst_le {column : Int} (hcolumn : -1 ≤ column) (indent : Int) (outer : List Int)
    (tokens : List Token) : (closing column indent outer tokens).1 ≤ column := by
  fun_induction closing column indent outer tokens with
  | case1 => exact hcolumn
  | case2 => omega
  | case3 indent tokens next outer _ ih => exact ih
  | case4 => omega

lemma streamEnd_mem_closing {column indent : Int} {outer : List Int} {tokens : List Token}
    (h : .streamEnd ∈ (closing column indent outer tokens).2.2) : .streamEnd ∈ tokens := by
  fun_induction closing column indent outer tokens with
  | case1 => simpa using h
  | case2 => exact h
  | case3 indent tokens next outer _ ih => simpa using ih h
  | case4 => exact h

lemma At.indent_le (h : r.At rest column allowed indent outer tokens) : indent ≤ column := by
  have hle : (closing (column : Int) r.indent r.outer r.tokens).1 ≤ column :=
    closing_fst_le (by omega) r.indent r.outer r.tokens
  rw [h.blocks] at hle
  exact hle

lemma At.streamEnd_notMem_tokens (h : r.At rest column allowed indent outer tokens) :
    .streamEnd ∉ tokens := by
  intro hmem
  have hclosed : .streamEnd ∈ (closing (column : Int) r.indent r.outer r.tokens).2.2 := by
    rw [h.blocks]
    exact hmem
  exact h.noEnd (streamEnd_mem_closing hclosed)

/-! ### Keys -/

def isWord : List Char → Bool
  | [] => false
  | c :: rest => isWordChar c && rest.all isKeyChar

lemma isKeyChar_of_isWord {key : List Char} (h : isWord key = true) :
    ∀ c ∈ key, isKeyChar c = true := by
  cases key with
  | nil => cases h
  | cons c rest =>
    rw [isWord, Bool.and_eq_true, List.all_eq_true] at h
    intro d hd
    rcases List.mem_cons.mp hd with rfl | hd
    · exact isKeyChar_of_isWordChar h.1
    · exact h.2 d hd

/-- Whether a text starts with a word or is at its end. -/
def StartsWord (s : List Char) : Prop := ∀ c ∈ s.head?, isWordChar c = true

lemma exists_cons_of_isWord {key : List Char} (h : isWord key = true) :
    ∃ c rest, key = c :: rest ∧ isWordChar c = true := by
  cases key with
  | nil => cases h
  | cons c rest =>
    rw [isWord, Bool.and_eq_true] at h
    exact ⟨c, rest, rfl, h.1⟩

lemma readPlain_word {word : List Char} (hword : ∀ c ∈ word, isKeyChar c = true) (flow : Bool)
    (indent : Int) (rest acc : List Char) :
    readPlain? flow indent (word ++ rest) .none acc =
      readPlain? flow indent rest .none (word.reverse ++ acc) := by
  induction word generalizing acc with
  | nil => rfl
  | cons c word ih =>
    have hc := hword c List.mem_cons_self
    have hreturn : c ≠ '\r' := ne_of_isKeyChar hc (by decide)
    have hcolon : (c == ':') = false := beq_false_of_ne (ne_of_isKeyChar hc (by decide))
    have hflow : isFlowIndicator c = false := by
      have hne : ∀ d : Char, isKeyChar d = false → (c == d) = false :=
        fun d hd => beq_false_of_ne (ne_of_isKeyChar hc hd)
      unfold isFlowIndicator
      rw [hne ',' (by decide), hne '[' (by decide), hne ']' (by decide),
        hne (Char.ofNat 0x7B) (by decide), hne (Char.ofNat 0x7D) (by decide)]
      rfl
    have hgap : Gap.none.endsPlain flow indent (c :: (word ++ rest)) = false := rfl
    have hstep : readPlain? flow indent (c :: (word ++ rest)) .none acc =
        readPlain? flow indent (word ++ rest) .none (c :: acc) := by
      rw [readPlain?]
      · simp only [isBlank_of_isKeyChar hc, isBreak_of_isKeyChar hc, hgap, hcolon, hflow,
          Bool.and_false, Bool.false_and, Bool.or_self, Bool.false_eq_true, if_false]
        rfl
      · intro _ hr _
        exact hreturn hr
    rw [List.cons_append, hstep, ih fun d hd => hword d (List.mem_cons_of_mem _ hd)]
    simp

lemma readPlain_key {key rest : List Char} (hkey : ∀ c ∈ key, isKeyChar c = true)
    (hrest : startsBlank rest = true) (indent : Int) :
    readPlain? false indent (key ++ ':' :: rest) .none [] = some ⟨key, false, ':' :: rest⟩ := by
  have hblank : isBlank ':' = false := by decide
  have hbreak : isBreak ':' = false := by decide
  have hgap : Gap.none.endsPlain false indent (':' :: rest) = false := rfl
  have hbroken : Gap.none.broken = false := rfl
  rw [readPlain_word hkey, readPlain?]
  · simp [hblank, hbreak, hgap, hrest, hbroken]
  · simp

/-- A character that is neither skipped nor starts a comment. -/
def isOrdinary (c : Char) : Bool :=
  !isBlank c && !isBreak c && c != '#' && c != byteOrderMark

lemma skipBlank_ordinary {c : Char} (hc : isOrdinary c = true) (flow : Bool) (rest : List Char)
    (allowed : Bool) : skipBlank flow (c :: rest) false allowed = (c :: rest, allowed) := by
  simp only [isOrdinary, isBlank, Bool.and_eq_true, Bool.not_eq_true', Bool.or_eq_false_iff,
    bne_iff_ne] at hc
  obtain ⟨⟨⟨⟨hspace, htab⟩, hbreak⟩, hsign⟩, -⟩ := hc
  rw [skipBlank]
  · simp [hbreak, hspace, htab, hsign]
  · rintro tail rfl
    cases hbreak

lemma toNextToken_ordinary {c : Char} (hc : isOrdinary c = true) {r : Reader} {rest : List Char}
    (h : r.rest = c :: rest) : r.toNextToken = r := by
  have hmark : (r.rest.head? == some byteOrderMark) = false := by
    simp only [isOrdinary, Bool.and_eq_true, bne_iff_ne] at hc
    rw [h]
    exact beq_false_of_ne fun heq => hc.2 (Option.some.inj heq)
  have hmove : r.moveTo r.rest = r := by
    rw [moveTo_append r [] rfl]
    rfl
  unfold toNextToken
  rw [hmark, Bool.and_false, if_neg Bool.false_ne_true]
  dsimp only
  rw [h, skipBlank_ordinary hc, ← h]
  dsimp only
  rw [hmove]

lemma putAt_append {r : Reader} (front : List Token) {back : List Token}
    (h : r.tokens = front ++ back) (t : Token) :
    r.putAt back.length t = { r with tokens := front ++ t :: back } := by
  have hcount : r.tokens.length - back.length = front.length := by
    rw [h, List.length_append, Nat.add_sub_cancel]
  rw [putAt, hcount, h, List.take_left, List.drop_left]

/-- A reader that has read a scalar which may still turn out to be a key: the candidate for it stands in
front of the scalar. -/
def pendingKey (scalar : Token) (required : Bool) (rest : List Char) (p p' : Position) (indent : Int)
    (outer : List Int) (tokens : List Token) (outerCandidates : List (Option KeyCandidate)) : Reader :=
  ⟨rest, p', scalar :: tokens, indent, outer, some ⟨required, tokens.length, p⟩, outerCandidates, false⟩

lemma putAt_pendingKey (scalar : Token) (required : Bool) (rest : List Char) (p p' : Position)
    (indent : Int) (outer : List Int) (tokens : List Token)
    (outerCandidates : List (Option KeyCandidate)) :
    (pendingKey scalar required rest p p' indent outer tokens outerCandidates).putAt tokens.length .key =
      ⟨rest, p', scalar :: .key :: tokens, indent, outer, some ⟨required, tokens.length, p⟩,
        outerCandidates, false⟩ :=
  putAt_append [scalar] rfl .key

lemma dropStale_pendingKey {p p' : Position} (hline : p'.line = p.line)
    (hindex : p'.index ≤ p.index + 1024) (scalar : Token) (required : Bool) (rest : List Char)
    (indent : Int) (outer : List Int) (tokens : List Token) :
    (pendingKey scalar required rest p p' indent outer tokens []).dropStale? =
      some (pendingKey scalar required rest p p' indent outer tokens []) := by
  have hfresh : isStale p' ⟨required, tokens.length, p⟩ = false := by
    simp only [isStale, Bool.or_eq_false_iff, decide_eq_false_iff_not]
    omega
  have hkept : keepFresh? p' (some ⟨required, tokens.length, p⟩) =
      some (some ⟨required, tokens.length, p⟩) := by
    rw [keepFresh?, hfresh]
    rfl
  change (keepFresh? p' (some ⟨required, tokens.length, p⟩)).bind _ = _
  rw [hkept]
  rfl

lemma value_pendingKey {p : Position} (hindent : indent ≤ p.column) (scalar : Token) (required : Bool)
    (rest : List Char) (p' : Position) (outer : List Int) (tokens : List Token) :
    (pendingKey scalar required (':' :: rest) p p' indent outer tokens []).value? =
      some (idle rest (p'.after [':']) false p.column (if indent < p.column then indent :: outer else outer)
        (.value :: scalar :: .key ::
          (if indent < p.column then .blockMappingStart :: tokens else tokens))) := by
  rw [value?]
  change some (pushChar { ((pendingKey scalar required (':' :: rest) p p' indent outer tokens []).putAt
    tokens.length .key).openBlock p.column tokens.length .blockMappingStart with
      candidate := none, keyAllowed := false } .value) = _
  rw [putAt_pendingKey, openBlock, putAt_append [scalar, .key] rfl]
  by_cases hopen : indent < p.column
  · rw [if_pos hopen, if_pos hopen, if_pos (by simpa [inFlow] using hopen), pushChar]
    rw [moveTo_append _ [':'] rfl]
    rfl
  · have hsame : indent = p.column := by omega
    rw [if_neg hopen, if_neg hopen, if_neg (by simpa [inFlow] using hopen), pushChar]
    rw [moveTo_append _ [':'] rfl, ← hsame]
    rfl

lemma step_pendingKey {p p' : Position} (hindent : indent ≤ p.column) (hindent' : indent ≤ p'.column)
    (hline : p'.line = p.line) (hindex : p'.index ≤ p.index + 1024) (hrest : startsBlank rest = true)
    (scalar : Token) (required : Bool) (outer : List Int) (tokens : List Token) :
    (pendingKey scalar required (':' :: rest) p p' indent outer tokens []).step? =
      some (idle rest (p'.after [':']) false p.column (if indent < p.column then indent :: outer else outer)
        (.value :: scalar :: .key ::
          (if indent < p.column then .blockMappingStart :: tokens else tokens))) := by
  have hclose : (pendingKey scalar required (':' :: rest) p p' indent outer tokens []).closeBlocks
      p'.column = pendingKey scalar required (':' :: rest) p p' indent outer tokens [] := by
    have hnone : closing p'.column indent outer (scalar :: tokens) =
        (indent, outer, scalar :: tokens) := closing_of_le hindent' _ _
    unfold closeBlocks pendingKey
    rw [hnone]
    rfl
  unfold step?
  rw [toNextToken_ordinary (c := ':') (by decide) rfl, dropStale_pendingKey hline hindex,
    Option.bind_eq_bind, Option.bind_some]
  change ((pendingKey scalar required (':' :: rest) p p' indent outer tokens []).closeBlocks
    p'.column).read? = _
  rw [hclose]
  change dispatch? _ ':' rest = _
  rw [dispatch_colon (Or.inr hrest), value_pendingKey hindent]

lemma At.finish_pendingKey {key : List Char} (h : r.At (key ++ ':' :: rest) column true indent outer tokens)
    (hkey : isWord key = true) (hrest : startsBlank rest = true) :
    ∃ p : Position, p.column = column ∧ r.finish =
      (pendingKey (.scalar .plain key) (indent == p.column) (':' :: rest) p (p.after key) indent outer
        tokens []).finish := by
  obtain ⟨p, rfl, hstep⟩ := h.step
  obtain ⟨c, more, rfl, hword⟩ := exists_cons_of_isWord hkey
  refine ⟨p, rfl, h.finish_eq ?_ (by simp [pendingKey]) ?_⟩
  · have hnote : (idle (c :: more ++ ':' :: rest) p true indent outer tokens).noteCandidate? =
        some ⟨c :: more ++ ':' :: rest, p, tokens, indent, outer,
          some ⟨indent == p.column, tokens.length, p⟩, [], true⟩ := rfl
    have hplain := readPlain_key (isKeyChar_of_isWord hkey) hrest (indent + 1)
    rw [hstep]
    change dispatch? _ c (more ++ ':' :: rest) = _
    rw [dispatch_word hword, plainScalar?, hnote, Option.bind_eq_bind, Option.bind_some]
    change (readPlain? false (indent + 1) (c :: more ++ ':' :: rest) .none []).bind _ = _
    rw [hplain, Option.bind_some, moveTo_append _ (c :: more) rfl]
    rfl
  · simp only [pendingKey, List.length_append, List.length_cons]
    omega

/-- A key of a block mapping and its colon. A mapping begins if the key stands right of the open
collections. -/
lemma At.finish_key {key : List Char} (h : r.At (key ++ ':' :: rest) column true indent outer tokens)
    (hkey : isWord key = true) (hlength : key.length ≤ 1024) (hrest : startsBlank rest = true) :
    ∃ p : Position, p.column = column + key.length + 1 ∧ r.finish =
      (idle rest p false column (if indent < column then indent :: outer else outer)
        (.value :: .scalar .plain key :: .key ::
          (if indent < column then .blockMappingStart :: tokens else tokens))).finish := by
  have hle := h.indent_le
  obtain ⟨p, rfl, hfirst⟩ := h.finish_pendingKey hkey hrest
  have hafter : p.after key = ⟨p.index + key.length, p.line, p.column + key.length⟩ := by
    have hwords := after_words (fun c hc => isBreak_of_isKeyChar (isKeyChar_of_isWord hkey c hc)) p []
    rwa [List.append_nil] at hwords
  -- the colon puts the marks in front of the scalar
  have hcolumn : indent ≤ (p.after key).column := by
    rw [hafter]
    dsimp only
    omega
  have hline : (p.after key).line = p.line := by rw [hafter]
  have hindex : (p.after key).index ≤ p.index + 1024 := by
    rw [hafter]
    dsimp only
    omega
  refine ⟨(p.after key).after [':'], ?_, ?_⟩
  · rw [hafter, after_word (by decide)]
    rfl
  · rw [hfirst]
    exact finish_of_step (dropStale_pendingKey hline hindex _ _ _ _ _ _)
      (step_pendingKey hle hcolumn hline hindex hrest _ _ _ _) (by simp) (by simp [pendingKey])

/-! ### Values -/

lemma quotedScalar_double (r : Reader) :
    r.quotedScalar? .doubleQuoted = r.noteCandidate?.bind fun noted =>
      (readDoubleQuoted? 0 (noted.rest.drop 1) .none []).bind fun out =>
        some ({ noted.moveTo out.2 with keyAllowed := false }.push
          (.scalar .doubleQuoted out.1)) := rfl

/-- A text in the quotes of JSON is read as a whole or not at all. -/
lemma quotedScalar_quote {s : List Char} {noted : Reader} (hnote : r.noteCandidate? = some noted)
    (hrest : noted.rest = '"' :: (s.flatMap Json.escape ++ '"' :: rest)) :
    r.quotedScalar? .doubleQuoted = none ∨ r.quotedScalar? .doubleQuoted = some
      { noted with
        rest
        position := noted.position.after ('"' :: (s.flatMap Json.escape ++ ['"']))
        tokens := .scalar .doubleQuoted (unquoted s .none []) :: noted.tokens
        keyAllowed := false } := by
  rw [quotedScalar_double, hnote, Option.bind_some, hrest, List.drop_one, List.tail_cons]
  cases hout : readDoubleQuoted? 0 (s.flatMap Json.escape ++ '"' :: rest) .none [] with
  | none => exact Or.inl rfl
  | some out =>
    right
    rw [readDoubleQuoted_quote hout, Option.bind_some,
      moveTo_append noted ('"' :: (s.flatMap Json.escape ++ ['"'])) (by simp [hrest])]
    rfl

lemma At.finish_quoted {s : List Char}
    (h : r.At ('"' :: (s.flatMap Json.escape ++ '"' :: rest)) column false indent outer tokens)
    (hend : .streamEnd ∈ r.finish) :
    ∃ p : Position, r.finish = (idle rest p false indent outer
      (.scalar .doubleQuoted (unquoted s .none []) :: tokens)).finish := by
  obtain ⟨p, -, hstep⟩ := h.step
  change _ = dispatch? _ '"' _ at hstep
  rw [dispatch_quote] at hstep
  rcases quotedScalar_quote (r := idle _ p false indent outer tokens) rfl rfl with hnone | hsome
  · rw [hnone] at hstep
    exact absurd hend (h.streamEnd_notMem hstep)
  · rw [hsome] at hstep
    refine ⟨_, h.finish_eq hstep (by simp) ?_⟩
    simp only [rest_idle, List.length_cons, List.length_append]
    omega

lemma readPlain_line {word : List Char} (hword : ∀ c ∈ word, isKeyChar c = true) {s : List Char}
    (hs : StartsWord s) {n : Nat} (hn : n < indent) :
    readPlain? false indent (word ++ '\n' :: (List.replicate n ' ' ++ s)) .none [] =
      some ⟨word, true, s⟩ := by
  have hblanks : ∀ k g, g.broken = true → readPlain? false indent (List.replicate k ' ' ++ s) g
      word.reverse = readPlain? false indent s { g with column := g.column + k } word.reverse := by
    intro k
    induction k with
    | zero => intro g _; rfl
    | succ k ih =>
      intro g hg
      rw [List.replicate_succ, List.cons_append, readPlain?]
      · have hnext := ih { g with column := g.column + 1 } hg
        rw [if_pos (by decide), if_neg (by simp), Gap.blank, if_pos hg, hnext, Nat.add_assoc,
          Nat.add_comm 1 k]
      · simp
  have hkept : keptBreak '\n' = '\n' := by decide
  have hline : readPlain? false indent ('\n' :: (List.replicate n ' ' ++ s)) .none word.reverse =
      readPlain? false indent s ⟨[], true, some '\n', [], n⟩ word.reverse := by
    have hspaces := hblanks n ⟨[], true, some '\n', [], 0⟩ rfl
    rw [readPlain?]
    · rw [if_neg (by decide), if_pos (by decide), hkept]
      simp only [Nat.zero_add] at hspaces
      exact hspaces
    · simp
  rw [readPlain_word hword, List.append_nil, hline]
  cases s with
  | nil => rw [readPlain?, List.reverse_reverse]
  | cons c rest =>
    have hc := isKeyChar_of_isWordChar (hs c rfl)
    have hreturn : c ≠ '\r' := ne_of_isKeyChar hc (by decide)
    have hends : (⟨[], true, some '\n', [], n⟩ : Gap).endsPlain false indent (c :: rest) = true := by
      simp [Gap.endsPlain, Gap.isSome, hn]
    rw [readPlain?]
    · rw [if_neg (by simp [isBlank_of_isKeyChar hc]), if_neg (by simp [isBreak_of_isKeyChar hc]),
        if_pos hends, List.reverse_reverse]
    · intro _ hr _
      exact hreturn hr

lemma At.finish_word {word s : List Char} {n : Nat}
    (h : r.At (word ++ '\n' :: (List.replicate n ' ' ++ s)) column false indent outer tokens)
    (hword : isWord word = true) (hs : StartsWord s) (hn : n ≤ indent) :
    ∃ p : Position, p.column = n ∧ r.finish =
      (idle s p true indent outer (.scalar .plain word :: tokens)).finish := by
  obtain ⟨p, -, hstep⟩ := h.step
  have hchars := isKeyChar_of_isWord hword
  have hplain := readPlain_line hchars hs (show (n : Int) < indent + 1 by omega)
  obtain ⟨c, more, rfl, hc⟩ := exists_cons_of_isWord hword
  change _ = dispatch? _ c (more ++ '\n' :: (List.replicate n ' ' ++ s)) at hstep
  rw [dispatch_word hc] at hstep
  change _ = (readPlain? false (indent + 1) (c :: more ++ '\n' :: (List.replicate n ' ' ++ s)) .none
    []).bind (fun out => some (Reader.push { moveTo _ out.rest with keyAllowed := out.broken }
      (.scalar .plain out.value))) at hstep
  rw [hplain, Option.bind_some,
    moveTo_append _ (c :: more ++ '\n' :: List.replicate n ' ') (by simp [idle])] at hstep
  refine ⟨p.after (c :: more ++ '\n' :: List.replicate n ' '), ?_, h.finish_eq hstep ?_ ?_⟩
  · rw [column_after_line (by simp [isBreak]), List.length_replicate]
  · simp
  · simp only [rest_idle, List.length_cons, List.length_append]
    omega

lemma blockScalar_literal (r : Reader) :
    r.blockScalar? .literal = r.dropCandidate?.bind fun r =>
      (readBlock? false r.indent (r.rest.drop 1)).bind fun out =>
        some ({ r.moveTo out.2 with keyAllowed := true }.push (.scalar .literal out.1)) := rfl

lemma column_after_literal (p : Position) (body : List Char) :
    (p.after ('|' :: '2' :: blockSign body :: '\n' :: indented true (blockLines body))).column = 0 := by
  have hlast : ('|' :: '2' :: blockSign body :: '\n' ::
      indented true (blockLines body)).getLast? = some '\n' := by
    have hlines := (getLast?_indented true (blockLines body)).trans (getLast?_blockLines body)
    rw [List.getLast?_cons_cons, List.getLast?_cons_cons, List.getLast?_cons_cons, List.getLast?_cons,
      hlines]
    rfl
  obtain ⟨front, hfront⟩ := List.getLast?_eq_some_iff.mp hlast
  rw [hfront, column_after_line (by simp)]
  rfl

/-- A literal block of the outermost mapping. If it keeps its text, the next token is read after it;
otherwise another text is in its place, and nothing is said about what follows. -/
lemma At.finish_literal {body tail : List Char}
    (h : r.At ('|' :: '2' :: blockSign body :: '\n' :: (indented true (blockLines body) ++ tail))
      column false 0 outer tokens)
    (htail : EndsBlock tail) (hend : .streamEnd ∈ r.finish) :
    (KeptByBlock body ∧ ∃ p : Position, p.column = 0 ∧ r.finish =
      (idle tail p true 0 outer (.scalar .literal body :: tokens)).finish) ∨
    ¬ KeptByBlock body ∧
      ∃ text, text ≠ body ∧ (.scalar .literal text :: tokens).reverse <+: r.finish := by
  obtain ⟨p, -, hstep⟩ := h.step
  change _ = dispatch? _ '|' _ at hstep
  rw [dispatch_bar rfl, blockScalar_literal] at hstep
  change _ = (readBlock? false 0 ('2' :: blockSign body :: '\n' ::
    (indented true (blockLines body) ++ tail))).bind (fun out => some (push
      { moveTo _ out.2 with keyAllowed := true } (.scalar .literal out.1))) at hstep
  cases hout : readBlock? false 0 ('2' :: blockSign body :: '\n' ::
      (indented true (blockLines body) ++ tail)) with
  | none =>
    rw [hout] at hstep
    exact absurd hend (h.streamEnd_notMem hstep)
  | some out =>
    rw [hout, Option.bind_some] at hstep
    obtain ⟨htext, hrest⟩ := readBlock_literal htail hout
    by_cases hkept : KeptByBlock body
    · left
      refine ⟨hkept, ?_⟩
      rw [htext.mpr hkept, hrest hkept, moveTo_append _
        ('|' :: '2' :: blockSign body :: '\n' :: indented true (blockLines body)) (by simp [idle])]
        at hstep
      refine ⟨_, ?_, h.finish_eq hstep ?_ ?_⟩
      · exact column_after_literal _ body
      · simp
      · simp only [rest_idle, List.length_cons, List.length_append]
        omega
    · right
      refine ⟨hkept, out.1, fun heq => hkept (htext.mp heq), ?_⟩
      refine Settled.prefix_finish_of_step ?_ (dropStale_of_idle h.candidate h.flow) hstep
      exact ⟨List.suffix_refl _, by simp [push, moveTo, idle], by simp [push, moveTo, idle]⟩

/-! ### From one token to the next -/

lemma isOrdinary_of_isWordChar {c : Char} (h : isWordChar c = true) : isOrdinary c = true := by
  have hkey := isKeyChar_of_isWordChar h
  have hsign : c ≠ '#' := ne_of_isKeyChar hkey (by decide)
  have hmark : c ≠ byteOrderMark := ne_of_isKeyChar hkey (by decide)
  simp [isOrdinary, isBlank_of_isKeyChar hkey, isBreak_of_isKeyChar hkey, hsign, hmark]

lemma skipBlank_word {s : List Char} (hs : StartsWord s) (flow allowed : Bool) :
    skipBlank flow s false allowed = (s, allowed) := by
  cases s with
  | nil => rw [skipBlank]
  | cons c rest => exact skipBlank_ordinary (isOrdinary_of_isWordChar (hs c rfl)) flow rest allowed

lemma skipBlank_indentation {s : List Char} (hs : StartsWord s) (flow allowed : Bool) (n : Nat) :
    skipBlank flow (List.replicate n ' ' ++ s) false allowed = (s, allowed) := by
  have hspace : isBreak ' ' = false := by decide
  induction n with
  | zero => exact skipBlank_word hs flow allowed
  | succ n ih =>
    rw [List.replicate_succ, List.cons_append, skipBlank]
    · simpa [hspace] using ih
    · simp

lemma toNextToken_of_skipBlank {r : Reader} (hmark : r.rest.head? ≠ some byteOrderMark)
    (front : List Char) {rest : List Char} (hrest : r.rest = front ++ rest) {allowed : Bool}
    (hskip : skipBlank r.inFlow r.rest false r.keyAllowed = (rest, allowed)) :
    r.toNextToken =
      { r with rest, position := r.position.after front, keyAllowed := allowed } := by
  unfold toNextToken
  rw [beq_false_of_ne hmark, Bool.and_false, if_neg Bool.false_ne_true]
  dsimp only
  rw [hskip, moveTo_append r front hrest]

lemma at_next_line {s : List Char} (hs : StartsWord s) (n : Nat) (p : Position)
    {indent' : Int} {outer' : List Int} {tokens' : List Token}
    (hblocks : closing n indent outer tokens = (indent', outer', tokens'))
    (hend : .streamEnd ∉ tokens) :
    (idle ('\n' :: (List.replicate n ' ' ++ s)) p allowed indent outer tokens).At s n true indent'
      outer' tokens' := by
  have hskip : skipBlank false ('\n' :: (List.replicate n ' ' ++ s)) false allowed = (s, true) := by
    have hbreak : isBreak '\n' = true := by decide
    rw [skipBlank]
    · simpa [hbreak] using skipBlank_indentation hs false true n
    · simp
  have hnext : (idle ('\n' :: (List.replicate n ' ' ++ s)) p allowed indent outer tokens).toNextToken =
      idle s (p.after ('\n' :: List.replicate n ' ')) true indent outer tokens :=
    toNextToken_of_skipBlank (by simp [byteOrderMark]) ('\n' :: List.replicate n ' ') (by simp) hskip
  refine ⟨by rw [hnext]; rfl, ?_, by rw [hnext]; rfl, rfl, rfl, hblocks, hend⟩
  rw [hnext]
  have hwords : ∀ c ∈ List.replicate n ' ', isBreak c = false := by simp [isBreak]
  have hcolumn := column_after_line hwords [] p
  rwa [List.length_replicate] at hcolumn

lemma at_word {s : List Char} (hs : StartsWord s) (p : Position)
    {indent' : Int} {outer' : List Int} {tokens' : List Token}
    (hblocks : closing p.column indent outer tokens = (indent', outer', tokens'))
    (hend : .streamEnd ∉ tokens) :
    (idle s p true indent outer tokens).At s p.column true indent' outer' tokens' := by
  have hmark : s.head? ≠ some byteOrderMark := by
    intro h
    exact absurd (hs _ h) (by decide)
  have hnext : (idle s p true indent outer tokens).toNextToken =
      idle s p true indent outer tokens :=
    toNextToken_of_skipBlank hmark [] rfl (skipBlank_word hs false true)
  exact ⟨by rw [hnext]; rfl, by rw [hnext]; rfl, by rw [hnext]; rfl, rfl, rfl, hblocks, hend⟩

lemma at_value {c : Char} (hc : isOrdinary c = true) (s : List Char) {p : Position}
    (hindent : indent ≤ p.column) (hend : .streamEnd ∉ tokens) :
    (idle (' ' :: c :: s) p false indent outer tokens).At (c :: s) (p.column + 1) false indent outer
      tokens := by
  have hskip : skipBlank false (' ' :: c :: s) false false = (c :: s, false) := by
    have hspace : isBreak ' ' = false := by decide
    rw [skipBlank]
    · simpa [hspace] using skipBlank_ordinary hc false s false
    · simp
  have hnext : (idle (' ' :: c :: s) p false indent outer tokens).toNextToken =
      idle (c :: s) (p.after [' ']) false indent outer tokens :=
    toNextToken_of_skipBlank (by simp [byteOrderMark]) [' '] rfl hskip
  have hcolumn : (p.after [' ']).column = p.column + 1 := by
    rw [after_word (by decide)]
    rfl
  have hblocks : closing ((p.column + 1 : Nat) : Int) indent outer tokens =
      (indent, outer, tokens) := closing_of_le (by omega) _ _
  exact ⟨by rw [hnext]; rfl, by rw [hnext]; exact hcolumn, by rw [hnext]; rfl, rfl, rfl, hblocks,
    hend⟩

lemma At.finish_key_value {key s : List Char} {c : Char}
    (h : r.At (key ++ ':' :: ' ' :: c :: s) column true indent outer tokens)
    (hkey : isWord key = true) (hlength : key.length ≤ 1024) (hc : isOrdinary c = true) :
    ∃ (r' : Reader) (column' : Nat), r'.finish = r.finish ∧
      r'.At (c :: s) column' false column (if indent < column then indent :: outer else outer)
        (.value :: .scalar .plain key :: .key ::
          (if indent < column then .blockMappingStart :: tokens else tokens)) := by
  have hnone := h.streamEnd_notMem_tokens
  obtain ⟨p, hp, hfinish⟩ := h.finish_key hkey hlength rfl
  have hend : .streamEnd ∉ Token.value :: .scalar .plain key :: .key ::
      (if indent < column then .blockMappingStart :: tokens else tokens) := by
    split <;> simpa using hnone
  exact ⟨_, _, hfinish.symm, at_value hc s (by omega) hend⟩

lemma At.finish_end (h : r.At [] column allowed indent outer tokens) :
    r.finish = (closing (-1) indent outer tokens).2.2.reverse ++ [.streamEnd] := by
  obtain ⟨p, -, hstep⟩ := h.step
  let closed := closing (-1) indent outer tokens
  obtain ⟨q, hnext⟩ : ∃ q, (idle [] p allowed indent outer tokens).atEnd? =
      some (idle [] q false closed.1 closed.2.1 (.streamEnd :: closed.2.2)) := by
    unfold atEnd?
    by_cases hcolumn : p.column = 0
    · refine ⟨p, ?_⟩
      change (closeBlocks (if p.column = 0 then _ else _) (-1)).dropCandidate?.bind _ = _
      rw [if_pos hcolumn]
      rfl
    · refine ⟨{ p with column := 0, line := p.line + 1 }, ?_⟩
      change (closeBlocks (if p.column = 0 then _ else _) (-1)).dropCandidate?.bind _ = _
      rw [if_neg hcolumn]
      rfl
  rw [finish, dropStale_of_idle h.candidate h.flow]
  simp only [hstep.trans hnext, tokens_idle, closed, List.head?_cons, if_true, List.reverse_cons]

end

end Reader

end WorkflowOperator.Yaml
