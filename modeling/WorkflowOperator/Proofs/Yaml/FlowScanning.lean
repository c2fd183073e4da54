import WorkflowOperator.Json.Printer
import WorkflowOperator.Proofs.Yaml.Scanning

/-!
# JSON objects as flow mappings

What the reader of tokens does with an object of texts, written on one line. Each key that ends on its
line and is not too long is marked as one. A longer key, or one that has a break in it, is read as an item
of its own, and its colon has no key.
-/

namespace WorkflowOperator.Yaml

def memberText (e : String × String) : List Char :=
  '"' :: (e.1.toList.flatMap Json.escape ++ '"' :: ':' ::
    '"' :: (e.2.toList.flatMap Json.escape ++ ['"']))

/-- The members of an object with the brace that ends it; a comma stands before each but the first. -/
def membersText (first : Bool) : List (String × String) → List Char
  | [] => ['}']
  | e :: rest => (if first then [] else [',']) ++ memberText e ++ membersText false rest

lemma toList_ofTextMap (m : TextMap String) :
    (Json.ofTextMap m).compact.toList = '{' :: membersText true m.toList := by
  have hmembers : ∀ (l : List (String × String)) (e : String × String),
      (",".intercalate (Json.compactMembers ((e :: l).map fun e => (e.1, .string e.2)))).toList ++
        ['}'] = memberText e ++ membersText false l := by
    intro l
    induction l with
    | nil =>
      intro e
      simp [Json.compactMembers, Json.compact, Json.quote, memberText, membersText]
    | cons e' l ih =>
      intro e
      have hnext := ih e'
      simp only [List.map_cons, Json.compactMembers] at hnext ⊢
      rw [String.intercalate_cons_cons]
      simp only [String.toList_append, List.append_assoc, hnext]
      simp [Json.compact, Json.quote, memberText, membersText]
  unfold Json.ofTextMap
  rw [Json.compact]
  cases hm : m.toList with
  | nil => simp [Json.compactMembers, membersText]
  | cons e l =>
    have hall := hmembers l e
    simp only [String.toList_append, List.append_assoc, membersText, if_true, List.nil_append]
    change '{' :: _ = '{' :: _
    exact congrArg _ hall

def separator (first : Bool) : List Token := if first then [] else [.flowEntry]

/-- The tokens of members whose keys are marked. -/
def memberTokens (first : Bool) : List (String × String) → List Token
  | [] => []
  | e :: rest => separator first ++ .key :: .scalar .doubleQuoted (unquoted e.1.toList .none []) ::
      .value :: .scalar .doubleQuoted (unquoted e.2.toList .none []) :: memberTokens false rest

/-- The tokens of members up to a key that is not marked. -/
def brokenTokens (first : Bool) (key : List Char) : List (String × String) → List Token
  | [] => separator first ++ [.scalar .doubleQuoted key, .value]
  | e :: rest => separator first ++ .key :: .scalar .doubleQuoted (unquoted e.1.toList .none []) ::
      .value :: .scalar .doubleQuoted (unquoted e.2.toList .none []) :: brokenTokens false key rest

lemma streamEnd_notMem_separator (first : Bool) : .streamEnd ∉ separator first := by
  cases first <;> decide

lemma streamEnd_notMem_memberTokens (first : Bool) (l : List (String × String)) :
    .streamEnd ∉ memberTokens first l := by
  induction l generalizing first with
  | nil => exact List.not_mem_nil
  | cons e l ih => simp [memberTokens, streamEnd_notMem_separator, ih]

/-- A text whose quoted form ends on its line comes back as it was. -/
lemma keptByQuotes_of_escape {s : List Char}
    (h : ∀ c ∈ s.flatMap Json.escape, isBreak c = false) : KeptByQuotes s := by
  have hraw : ∀ c ∈ s, 0x7F < c.toNat → isBreak c = false := by
    intro c hc hlt
    have hq : c ≠ '"' := by rintro rfl; exact absurd hlt (by decide)
    have hb : c ≠ '\\' := by rintro rfl; exact absurd hlt (by decide)
    refine h c (List.mem_flatMap.mpr ⟨c, hc, ?_⟩)
    rw [escape_of_raw hq hb (by omega)]
    exact List.mem_singleton_self c
  have hsep : ∀ c ∈ s, isSeparator c = false := by
    intro c hc
    by_contra hsep
    rw [Bool.not_eq_false] at hsep
    have hlt : 0x7F < c.toNat := by
      simp only [isSeparator, Bool.or_eq_true, beq_iff_eq] at hsep
      omega
    have hbreak := hraw c hc hlt
    rw [isBreak_of_separator hsep] at hbreak
    cases hbreak
  refine ⟨fun hmem => ?_, ?_⟩
  · exact absurd (hraw _ hmem (by decide)) (by decide)
  · refine List.Pairwise.isChain (List.pairwise_of_forall_mem_list fun a ha b hb => ?_)
    simp [MayAdjoin, hsep a ha, hsep b hb]

namespace Reader

/-- A reader inside of one flow collection where no key has begun. -/
def flowing (rest : List Char) (p : Position) (allowed : Bool) (indent : Int) (outer : List Int)
    (tokens : List Token) : Reader :=
  ⟨rest, p, tokens, indent, outer, none, [none], allowed⟩

@[simp] lemma rest_flowing (rest : List Char) (p : Position) (allowed : Bool) (indent : Int)
    (outer : List Int) (tokens : List Token) :
    (flowing rest p allowed indent outer tokens).rest = rest := rfl

@[simp] lemma tokens_flowing (rest : List Char) (p : Position) (allowed : Bool) (indent : Int)
    (outer : List Int) (tokens : List Token) :
    (flowing rest p allowed indent outer tokens).tokens = tokens := rfl

section
variable {rest : List Char} {p : Position} {allowed : Bool} {indent : Int} {outer : List Int}
  {tokens : List Token}

lemma dropStale_flowing : (flowing rest p allowed indent outer tokens).dropStale? =
    some (flowing rest p allowed indent outer tokens) := rfl

lemma step_of_fresh {r : Reader} {c : Char} (hc : isOrdinary c = true) (hflow : r.inFlow = true)
    (hrest : r.rest = c :: rest) (hfresh : r.dropStale? = some r) : r.step? = r.dispatch? c rest := by
  have hclose : r.closeBlocks r.position.column = r := by rw [closeBlocks, if_pos hflow]
  unfold step?
  rw [toNextToken_ordinary hc hrest, hfresh, Option.bind_eq_bind, Option.bind_some, hclose]
  simp only [hrest]

lemma streamEnd_notMem_of_flowing (hend : .streamEnd ∉ tokens)
    (hstep : (flowing rest p allowed indent outer tokens).step? = none) :
    .streamEnd ∉ (flowing rest p allowed indent outer tokens).finish := by
  have hsettled : (flowing rest p allowed indent outer tokens).settled = tokens.reverse := by
    change tokens.reverse.take tokens.length = _
    rw [← List.length_reverse, List.take_length]
  rw [finish_of_failure dropStale_flowing hstep, hsettled, List.mem_reverse]
  exact hend

lemma At.finish_open {r : Reader} {column : Nat}
    (h : r.At ('{' :: rest) column false indent outer tokens) :
    ∃ p, r.finish = (flowing rest p true indent outer (.flowMappingStart :: tokens)).finish := by
  obtain ⟨p, -, hstep⟩ := h.step
  change _ = dispatch? _ '{' _ at hstep
  rw [dispatch_open] at hstep
  change _ = some (pushChar (flowing ('{' :: rest) p true indent outer tokens) _) at hstep
  rw [pushChar, moveTo_append _ ['{'] rfl] at hstep
  exact ⟨_, h.finish_eq hstep (by simp) (by simp)⟩

lemma finish_close (rest : List Char) (p : Position) (allowed : Bool) (indent : Int)
    (outer : List Int) (tokens : List Token) : ∃ p', (flowing ('}' :: rest) p allowed indent outer tokens).finish =
    (idle rest p' false indent outer (.flowMappingEnd :: tokens)).finish := by
  have hstep := step_of_fresh (r := flowing ('}' :: rest) p allowed indent outer tokens) (c := '}')
    (by decide) rfl rfl dropStale_flowing
  rw [dispatch_close] at hstep
  change _ = some (pushChar (idle ('}' :: rest) p false indent outer tokens) _) at hstep
  rw [pushChar, moveTo_append _ ['}'] rfl] at hstep
  exact ⟨_, finish_of_step dropStale_flowing hstep (by simp) (by simp)⟩

lemma finish_comma (rest : List Char) (p : Position) (allowed : Bool) (indent : Int)
    (outer : List Int) (tokens : List Token) : ∃ p', (flowing (',' :: rest) p allowed indent outer tokens).finish =
    (flowing rest p' true indent outer (.flowEntry :: tokens)).finish := by
  have hstep := step_of_fresh (r := flowing (',' :: rest) p allowed indent outer tokens) (c := ',')
    (by decide) rfl rfl dropStale_flowing
  rw [dispatch_comma] at hstep
  change _ = some (pushChar (flowing (',' :: rest) p true indent outer tokens) _) at hstep
  rw [pushChar, moveTo_append _ [','] rfl] at hstep
  exact ⟨_, finish_of_step dropStale_flowing hstep (by simp) (by simp)⟩

lemma finish_memberValue {s : List Char} (hend : .streamEnd ∉ tokens)
    (hmem : .streamEnd ∈ (flowing ('"' :: (s.flatMap Json.escape ++ '"' :: rest)) p false indent outer
      tokens).finish) :
    ∃ p', (flowing ('"' :: (s.flatMap Json.escape ++ '"' :: rest)) p false indent outer
        tokens).finish =
      (flowing rest p' false indent outer
        (.scalar .doubleQuoted (unquoted s .none []) :: tokens)).finish := by
  have hstep := step_of_fresh (r := flowing ('"' :: (s.flatMap Json.escape ++ '"' :: rest)) p false
    indent outer tokens) (c := '"') (by decide) rfl rfl dropStale_flowing
  rw [dispatch_quote] at hstep
  rcases quotedScalar_quote (r := flowing ('"' :: (s.flatMap Json.escape ++ '"' :: rest)) p false
    indent outer tokens) rfl rfl with hnone | hsome
  · rw [hnone] at hstep
    exact absurd hmem (streamEnd_notMem_of_flowing hend hstep)
  · rw [hsome] at hstep
    refine ⟨_, finish_of_step dropStale_flowing hstep (by simp) ?_⟩
    simp only [rest_flowing, List.length_cons, List.length_append]
    omega

lemma dropStale_pendingMember (scalar : Token) (rest : List Char) (p p' : Position) (indent : Int)
    (outer : List Int) (tokens : List Token) :
    (pendingKey scalar false rest p p' indent outer tokens [none]).dropStale? =
      some (if isStale p' ⟨false, tokens.length, p⟩ then
        flowing rest p' false indent outer (scalar :: tokens)
      else pendingKey scalar false rest p p' indent outer tokens [none]) := by
  change (keepFresh? p' (some ⟨false, tokens.length, p⟩)).bind _ = _
  rw [keepFresh?]
  cases isStale p' ⟨false, tokens.length, p⟩ <;> rfl

/-- The colon after a key that can still be marked as one. -/
lemma finish_colon_marked {p p' : Position} (hfresh : isStale p' ⟨false, tokens.length, p⟩ = false)
    (scalar : Token) : ∃ p'',
      (pendingKey scalar false (':' :: rest) p p' indent outer tokens [none]).finish =
        (flowing rest p'' false indent outer (.value :: scalar :: .key :: tokens)).finish := by
  have hkept := dropStale_pendingMember scalar (':' :: rest) p p' indent outer tokens
  rw [hfresh, if_neg Bool.false_ne_true] at hkept
  have hstep := step_of_fresh (c := ':') (by decide) rfl rfl hkept
  have hopen : ∀ r : Reader, r.inFlow = true → ∀ column count t, r.openBlock column count t = r := by
    intro r hr column count t
    rw [openBlock, hr]
    rfl
  rw [dispatch_colon (Or.inl rfl), value?] at hstep
  change _ = some (pushChar { ((pendingKey scalar false (':' :: rest) p p' indent outer tokens
    [none]).putAt tokens.length .key).openBlock p.column tokens.length .blockMappingStart with
      candidate := none, keyAllowed := false } .value) at hstep
  rw [putAt_pendingKey, hopen _ rfl, pushChar, moveTo_append _ [':'] rfl] at hstep
  exact ⟨_, finish_of_step hkept hstep (by simp) (by simp [pendingKey])⟩

/-- The colon after a scalar that is out of reach as a key. -/
lemma finish_colon_unmarked {p p' : Position} (hstale : isStale p' ⟨false, tokens.length, p⟩ = true)
    (scalar : Token) : ∃ p'',
      (pendingKey scalar false (':' :: rest) p p' indent outer tokens [none]).finish =
        (flowing rest p'' false indent outer (.value :: scalar :: tokens)).finish := by
  have hdropped := dropStale_pendingMember scalar (':' :: rest) p p' indent outer tokens
  rw [hstale, if_pos rfl] at hdropped
  have hstep := step_of_fresh (r := flowing (':' :: rest) p' false indent outer (scalar :: tokens))
    (c := ':') (by decide) rfl rfl dropStale_flowing
  rw [dispatch_colon (Or.inl rfl), value?] at hstep
  change _ = some (pushChar (flowing (':' :: rest) p' false indent outer (scalar :: tokens)) .value)
    at hstep
  rw [pushChar, moveTo_append _ [':'] rfl] at hstep
  exact ⟨_, finish_of_step hdropped hstep (by simp) (by simp [pendingKey])⟩

lemma isBreak_of_not_isStale {written : List Char} {count : Nat}
    (h : isStale (p.after written) ⟨false, count, p⟩ = false) : ∀ c ∈ written, isBreak c = false := by
  have hline : ¬ p.line < (p.after written).line := by
    simp only [isStale, Bool.or_eq_false_iff, decide_eq_false_iff_not] at h
    exact h.1
  intro c hc
  by_contra hbreak
  exact hline (line_lt_after ⟨c, hc, by simpa using hbreak⟩ p)

/-- The key of a member with its colon. If the key ends on its line and is not too long it is marked as
one, and then it has no break in it. -/
lemma finish_memberKey {s : List Char} (hend : .streamEnd ∉ tokens)
    (hmem : .streamEnd ∈ (flowing ('"' :: (s.flatMap Json.escape ++ '"' :: ':' :: rest)) p true indent
      outer tokens).finish) :
    ((∀ c ∈ s.flatMap Json.escape, isBreak c = false) ∧ ∃ p',
      (flowing ('"' :: (s.flatMap Json.escape ++ '"' :: ':' :: rest)) p true indent outer
        tokens).finish =
      (flowing rest p' false indent outer
        (.value :: .scalar .doubleQuoted (unquoted s .none []) :: .key :: tokens)).finish) ∨
    ∃ p', (flowing ('"' :: (s.flatMap Json.escape ++ '"' :: ':' :: rest)) p true indent outer
        tokens).finish =
      (flowing rest p' false indent outer
        (.value :: .scalar .doubleQuoted (unquoted s .none []) :: tokens)).finish := by
  have hnote : (flowing ('"' :: (s.flatMap Json.escape ++ '"' :: ':' :: rest)) p true indent outer
      tokens).noteCandidate? = some ⟨'"' :: (s.flatMap Json.escape ++ '"' :: ':' :: rest), p, tokens,
        indent, outer, some ⟨false, tokens.length, p⟩, [none], true⟩ := rfl
  have hstep := step_of_fresh (r := flowing ('"' :: (s.flatMap Json.escape ++ '"' :: ':' :: rest)) p
    true indent outer tokens) (c := '"') (by decide) rfl rfl dropStale_flowing
  rw [dispatch_quote] at hstep
  rcases quotedScalar_quote hnote rfl with hnone | hsome
  · rw [hnone] at hstep
    exact absurd hmem (streamEnd_notMem_of_flowing hend hstep)
  rw [hsome] at hstep
  have hpending : (flowing ('"' :: (s.flatMap Json.escape ++ '"' :: ':' :: rest)) p true indent outer
      tokens).finish = (pendingKey (.scalar .doubleQuoted (unquoted s .none [])) false (':' :: rest) p
        (p.after ('"' :: (s.flatMap Json.escape ++ ['"']))) indent outer tokens [none]).finish := by
    refine finish_of_step dropStale_flowing hstep (by simp [pendingKey]) ?_
    simp only [pendingKey, rest_flowing, List.length_cons, List.length_append]
    omega
  rw [hpending]
  cases hstale : isStale (p.after ('"' :: (s.flatMap Json.escape ++ ['"'])))
      ⟨false, tokens.length, p⟩ with
  | false =>
    refine Or.inl ⟨fun c hc => isBreak_of_not_isStale hstale c ?_, finish_colon_marked hstale _⟩
    exact List.mem_cons_of_mem _ (List.mem_append_left _ hc)
  | true => exact Or.inr (finish_colon_unmarked hstale _)

lemma finish_separator (first : Bool) (e : String × String) (l : List (String × String))
    (rest : List Char) (p : Position) (indent : Int) (outer : List Int) (tokens : List Token) :
    ∃ p', (flowing (membersText first (e :: l) ++ rest) p first indent outer tokens).finish =
      (flowing (memberText e ++ (membersText false l ++ rest)) p' true indent outer
        ((separator first).reverse ++ tokens)).finish := by
  cases first with
  | true => exact ⟨p, by simp [membersText, separator]⟩
  | false =>
    obtain ⟨p', hcomma⟩ := finish_comma (memberText e ++ (membersText false l ++ rest)) p false
      indent outer tokens
    exact ⟨p', by simpa [membersText, separator] using hcomma⟩

/-- The members of an object: either all keys are marked and come back as they were, or a colon without
a key follows one of them. -/
lemma finish_members (l : List (String × String)) (first : Bool) (hend : .streamEnd ∉ tokens)
    (hmem : .streamEnd ∈ (flowing (membersText first l ++ rest) p first indent outer tokens).finish) :
    ((∀ e ∈ l, KeptByQuotes e.1.toList) ∧ ∃ p',
      (flowing (membersText first l ++ rest) p first indent outer tokens).finish =
      (idle rest p' false indent outer
        (.flowMappingEnd :: ((memberTokens first l).reverse ++ tokens))).finish) ∨
    ∃ front key, tokens.reverse ++ brokenTokens first key front <+:
      (flowing (membersText first l ++ rest) p first indent outer tokens).finish := by
  induction l generalizing first p tokens with
  | nil =>
    obtain ⟨p', hclose⟩ := finish_close rest p first indent outer tokens
    exact Or.inl ⟨by simp, p', hclose⟩
  | cons e l ih =>
    obtain ⟨p₁, hfirst⟩ := finish_separator first e l rest p indent outer tokens
    have hend₁ : .streamEnd ∉ (separator first).reverse ++ tokens := by
      simp [streamEnd_notMem_separator, hend]
    have htext : memberText e ++ (membersText false l ++ rest) =
        '"' :: (e.1.toList.flatMap Json.escape ++ '"' :: ':' ::
          ('"' :: (e.2.toList.flatMap Json.escape ++ '"' :: (membersText false l ++ rest)))) := by
      simp [memberText]
    rw [hfirst, htext] at hmem ⊢
    rcases finish_memberKey hend₁ hmem with ⟨hkey, p₂, hmarked⟩ | ⟨p₂, hbroken⟩
    · rw [hmarked] at hmem ⊢
      obtain ⟨p₃, hvalue⟩ := finish_memberValue (by simpa using hend₁) hmem
      rw [hvalue] at hmem ⊢
      rcases ih false (by simpa using hend₁) hmem with ⟨hkeys, p₄, hrest⟩ | ⟨front, key, hcut⟩
      · left
        refine ⟨?_, p₄, ?_⟩
        · intro e' he'
          rcases List.mem_cons.mp he' with rfl | he'
          · exact keptByQuotes_of_escape hkey
          · exact hkeys e' he'
        · rw [hrest]
          simp [memberTokens]
      · right
        refine ⟨e :: front, key, ?_⟩
        simpa [brokenTokens] using hcut
    · right
      refine ⟨[], unquoted e.1.toList .none [], ?_⟩
      rw [hbroken]
      have hsettled : (flowing ('"' :: (e.2.toList.flatMap Json.escape ++ '"' ::
          (membersText false l ++ rest))) p₂ false indent outer (.value ::
            .scalar .doubleQuoted (unquoted e.1.toList .none []) ::
              ((separator first).reverse ++ tokens))).Settled (.value ::
            .scalar .doubleQuoted (unquoted e.1.toList .none []) ::
              ((separator first).reverse ++ tokens)) :=
        ⟨List.suffix_refl _, by simp [flowing], by simp [flowing]⟩
      simpa [brokenTokens] using hsettled.prefix_finish

end

end Reader

end WorkflowOperator.Yaml
