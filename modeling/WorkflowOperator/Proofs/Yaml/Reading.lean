import WorkflowOperator.Proofs.Yaml.FlowScanning
import WorkflowOperator.Yaml.Document

/-!
# From tokens to nodes

The readers of nodes never use a token that they were not given, so a text that is YAML to its end has the
token of the end. Tokens that spell a node are read as that node whatever follows them, and so are keys
with such tokens after them; a colon without a key breaks the mapping that it is in.
-/

namespace WorkflowOperator.Yaml

/-! ### No token is made up -/

lemma readProperties_subset (ts : List Token) : (readProperties ts).2 ⊆ ts := by
  unfold readProperties
  split
  · exact List.subset_cons_of_subset _ (List.subset_cons_self _ _)
  · exact List.subset_cons_of_subset _ (List.subset_cons_self _ _)
  · exact List.subset_cons_self _ _
  · exact List.subset_cons_self _ _
  · exact List.Subset.refl _

lemma tail_of_eq_cons {t : Token} {ts rest : List Token} (h : ts = t :: rest) :
    rest ⊆ ts ∧ ts.length = rest.length + 1 := by
  rw [h]
  exact ⟨List.subset_cons_self _ _, List.length_cons⟩

mutual

lemma readNode_subset (block indentless : Bool) (s : Remaining) :
    (readNode block indentless s).2.tokens ⊆ s.tokens := by
  rw [readNode]
  split
  · rename_i name rest hs
    split
    · rw [hs]
      exact List.subset_cons_self _ _
    · exact List.nil_subset _
  · dsimp only
    split
    · exact List.nil_subset _
    · exact List.nil_subset _
    · rename_i tag t rest htag hrest
      have hproperties : t :: rest ⊆ s.tokens := hrest ▸ readProperties_subset s.tokens
      have hlength : rest.length + 1 ≤ s.tokens.length := by
        have hle := length_readProperties_le s.tokens
        rwa [hrest] at hle
      have hmore := List.Subset.trans (List.subset_cons_self t rest) hproperties
      split
      · exact hmore
      · exact List.Subset.trans (readFlowItems_subset true _) hmore
      · exact List.Subset.trans (readFlowEntries_subset true _) hmore
      · split
        · exact List.Subset.trans (readItems_subset _) hmore
        · exact hproperties
      · split
        · exact List.Subset.trans (readEntries_subset _) hmore
        · exact hproperties
      · split
        · exact List.Subset.trans (readIndentlessItems_subset _) hproperties
        · exact hproperties
      · exact hproperties
termination_by (s.tokens.length, 1)
decreasing_by
  all_goals first
    | exact Prod.Lex.right _ (by decide)
    | simp only [Prod.lex_def, Remaining.tokens_goOn, List.length_cons]; omega

lemma readOptional_subset (ends : Token → Bool) (block indentless : Bool) (s : Remaining) :
    (readOptional ends block indentless s).2.tokens ⊆ s.tokens := by
  rw [readOptional]
  split
  · exact List.Subset.refl _
  · split
    · exact List.Subset.refl _
    · exact readNode_subset block indentless s
termination_by (s.tokens.length, 2)
decreasing_by exact Prod.Lex.right _ (by decide)

lemma readItems_subset (s : Remaining) : (readItems s).2.tokens ⊆ s.tokens := by
  rw [readItems]
  split
  · rename_i rest hs
    obtain ⟨hrest, hlength⟩ := tail_of_eq_cons hs
    have hfirst := List.Subset.trans (readOptional_subset endsItem true false (s.goOn rest)) hrest
    dsimp only
    split
    · exact List.Subset.trans (readItems_subset _) hfirst
    · exact List.nil_subset _
  · rename_i rest hs
    exact hs ▸ List.subset_cons_self _ _
  · exact List.nil_subset _
termination_by (s.tokens.length, 0)
decreasing_by all_goals simp only [Prod.lex_def, Remaining.tokens_goOn]; omega

lemma readIndentlessItems_subset (s : Remaining) :
    (readIndentlessItems s).2.tokens ⊆ s.tokens := by
  rw [readIndentlessItems]
  split
  · rename_i rest hs
    obtain ⟨hrest, hlength⟩ := tail_of_eq_cons hs
    have hfirst := List.Subset.trans (readOptional_subset endsIndentlessItem true false (s.goOn rest)) hrest
    dsimp only
    split
    · exact List.Subset.trans (readIndentlessItems_subset _) hfirst
    · exact List.nil_subset _
  · exact List.Subset.refl _
  · exact List.Subset.refl _
termination_by (s.tokens.length, 0)
decreasing_by all_goals simp only [Prod.lex_def, Remaining.tokens_goOn]; omega

lemma readEntries_subset (s : Remaining) : (readEntries s).2.tokens ⊆ s.tokens := by
  rw [readEntries]
  split
  · rename_i rest hs
    obtain ⟨hrest, hlength⟩ := tail_of_eq_cons hs
    have hkey := List.Subset.trans (readOptional_subset endsBlockNode true true (s.goOn rest)) hrest
    dsimp only
    split
    · have hvalue := List.Subset.trans (readValue_subset endsBlockNode true _) hkey
      split
      · exact List.Subset.trans (readEntries_subset _) hvalue
      · exact List.nil_subset _
    · exact List.nil_subset _
  · rename_i rest hs
    exact hs ▸ List.subset_cons_self _ _
  · exact List.nil_subset _
termination_by (s.tokens.length, 0)
decreasing_by all_goals simp only [Prod.lex_def, Remaining.tokens_goOn]; omega

lemma readValue_subset (ends : Token → Bool) (block : Bool) (s : Remaining) :
    (readValue ends block s).2.tokens ⊆ s.tokens := by
  rw [readValue]
  split
  · rename_i rest hs
    obtain ⟨hrest, hlength⟩ := tail_of_eq_cons hs
    exact List.Subset.trans (readOptional_subset ends block block (s.goOn rest)) hrest
  · exact List.Subset.refl _
  · exact List.Subset.refl _
termination_by (s.tokens.length, 0)
decreasing_by all_goals simp only [Prod.lex_def, Remaining.tokens_goOn]; omega

lemma readFlowItems_subset (first : Bool) (s : Remaining) :
    (readFlowItems first s).2.tokens ⊆ s.tokens := by
  rw [readFlowItems]
  split
  · rename_i rest hs
    exact hs ▸ List.subset_cons_self _ _
  · rename_i t rest _ hs
    obtain ⟨hrest, hlength⟩ := tail_of_eq_cons hs
    split
    · exact readFlowItem_subset s
    · split
      · split
        · exact List.Subset.trans (List.subset_cons_self _ _) hrest
        · exact List.Subset.trans (readFlowItem_subset (s.goOn rest)) hrest
      · exact List.nil_subset _
  · exact List.Subset.refl _
termination_by (s.tokens.length, 4)
decreasing_by
  all_goals first
    | exact Prod.Lex.right _ (by decide)
    | simp only [Prod.lex_def, Remaining.tokens_goOn]; omega

lemma readFlowItem_subset (s : Remaining) : (readFlowItem s).2.tokens ⊆ s.tokens := by
  rw [readFlowItem]
  split
  · rename_i rest hs
    obtain ⟨hrest, hlength⟩ := tail_of_eq_cons hs
    have hkey := List.Subset.trans (readPairKey_subset (s.goOn rest)) hrest
    dsimp only
    split
    · have hvalue := List.Subset.trans (readValue_subset endsPairValue false _) hkey
      split
      · exact List.Subset.trans (readFlowItems_subset false _) hvalue
      · exact List.nil_subset _
    · exact List.nil_subset _
  · have hfirst := readNode_subset false false s
    dsimp only
    split
    · exact List.Subset.trans (readFlowItems_subset false _) hfirst
    · exact List.nil_subset _
termination_by (s.tokens.length, 3)
decreasing_by
  all_goals first
    | exact Prod.Lex.right _ (by decide)
    | simp only [Prod.lex_def, Remaining.tokens_goOn]; omega

lemma readPairKey_subset (s : Remaining) : (readPairKey s).2.tokens ⊆ s.tokens := by
  rw [readPairKey]
  split
  · exact List.Subset.refl _
  · rename_i t rest hs
    split
    · exact hs ▸ List.subset_cons_self _ _
    · exact readNode_subset false false s
termination_by (s.tokens.length, 2)
decreasing_by exact Prod.Lex.right _ (by decide)

lemma readFlowEntries_subset (first : Bool) (s : Remaining) :
    (readFlowEntries first s).2.tokens ⊆ s.tokens := by
  rw [readFlowEntries]
  split
  · rename_i rest hs
    exact hs ▸ List.subset_cons_self _ _
  · rename_i t rest _ hs
    obtain ⟨hrest, hlength⟩ := tail_of_eq_cons hs
    split
    · exact readFlowEntry_subset s
    · split
      · split
        · exact List.Subset.trans (List.subset_cons_self _ _) hrest
        · exact List.Subset.trans (readFlowEntry_subset (s.goOn rest)) hrest
      · exact List.nil_subset _
  · exact List.Subset.refl _
termination_by (s.tokens.length, 4)
decreasing_by
  all_goals first
    | exact Prod.Lex.right _ (by decide)
    | simp only [Prod.lex_def, Remaining.tokens_goOn]; omega

lemma readFlowEntry_subset (s : Remaining) : (readFlowEntry s).2.tokens ⊆ s.tokens := by
  rw [readFlowEntry]
  split
  · rename_i rest hs
    obtain ⟨hrest, hlength⟩ := tail_of_eq_cons hs
    have hkey := List.Subset.trans (readOptional_subset endsFlowKey false false (s.goOn rest)) hrest
    dsimp only
    split
    · have hvalue := List.Subset.trans (readValue_subset endsFlowValue false _) hkey
      split
      · exact List.Subset.trans (readFlowEntries_subset false _) hvalue
      · exact List.nil_subset _
    · exact List.nil_subset _
  · have hfirst := readNode_subset false false s
    dsimp only
    split
    · exact List.Subset.trans (readFlowEntries_subset false _) hfirst
    · exact List.nil_subset _
termination_by (s.tokens.length, 3)
decreasing_by
  all_goals first
    | exact Prod.Lex.right _ (by decide)
    | simp only [Prod.lex_def, Remaining.tokens_goOn]; omega

end

lemma readDirectives_subset {ts rest : List Token} {seen : Bool}
    {handles handles' : List (List Char × List Char)}
    (h : Document.readDirectives? ts seen handles = some (handles', rest)) : rest ⊆ ts := by
  fun_induction Document.readDirectives? ts seen handles with
  | case1 => cases h
  | case2 major minor ts seen handles _ ih => exact List.Subset.trans (ih h) (List.subset_cons_self _ _)
  | case3 => cases h
  | case4 handle start ts seen handles _ ih => exact List.Subset.trans (ih h) (List.subset_cons_self _ _)
  | case5 =>
    cases h
    exact List.Subset.refl _

lemma streamEnd_mem_of_endsText {ts : List Token} (h : Document.endsText ts = true) :
    .streamEnd ∈ ts := by
  fun_induction Document.endsText ts with
  | case1 => exact List.mem_singleton_self _
  | case2 rest ih => exact List.mem_cons_of_mem _ (ih h)
  | case3 => cases h

lemma streamEnd_mem_of_ofRoot {s : Remaining} {block indentless : Bool}
    (h : (Document.ofRoot (readNode block indentless s)).complete = true) :
    .streamEnd ∈ s.tokens :=
  readNode_subset block indentless s (streamEnd_mem_of_endsText h)

lemma streamEnd_mem_of_ofContent {handles : List (List Char × List Char)} {ts : List Token}
    (h : (Document.ofContent handles ts).complete = true) : .streamEnd ∈ ts := by
  unfold Document.ofContent at h
  split at h
  · cases h
  · split at h
    all_goals first | exact streamEnd_mem_of_endsText h | exact streamEnd_mem_of_ofRoot h

/-- A text that is YAML to its end has the token of the end. -/
theorem streamEnd_mem_of_complete {ts : List Token}
    (h : (Document.ofTokens ts).complete = true) : .streamEnd ∈ ts := by
  unfold Document.ofTokens at h
  split at h
  · cases h
  · exact List.mem_singleton_self _
  · exact List.mem_cons_of_mem _ (streamEnd_mem_of_ofContent h)
  · split at h
    · rename_i heq
      exact readDirectives_subset heq (List.mem_cons_of_mem _ (streamEnd_mem_of_ofContent h))
    · cases h
  · split at h
    · rename_i heq
      exact readDirectives_subset heq (List.mem_cons_of_mem _ (streamEnd_mem_of_ofContent h))
    · cases h
  · exact streamEnd_mem_of_ofRoot h

/-! ### Tokens that spell a node -/

lemma readNode_scalar (block indentless : Bool) (s : Remaining) (style : Style) (text : List Char)
    (more : List Token) :
    readNode block indentless (s.goOn (.scalar style text :: more)) =
      (.scalar none none style (String.ofList text), s.goOn more) := by
  rw [readNode]
  rfl

lemma readNode_flowMapping (block indentless : Bool) (s : Remaining) (more : List Token) :
    readNode block indentless (s.goOn (.flowMappingStart :: more)) =
      (.mapping none none (readFlowEntries true (s.goOn more)).1,
        (readFlowEntries true (s.goOn more)).2) := by
  rw [readNode]
  rfl

lemma readNode_blockMapping (indentless : Bool) (s : Remaining) (more : List Token) :
    readNode true indentless (s.goOn (.blockMappingStart :: more)) =
      (.mapping none none (readEntries (s.goOn more)).1, (readEntries (s.goOn more)).2) := by
  rw [readNode]
  rfl

lemma readOptional_of_ends {ends : Token → Bool} {t : Token} (ht : ends t = false)
    (block indentless : Bool) (s : Remaining) (more : List Token) :
    readOptional ends block indentless (s.goOn (t :: more)) =
      readNode block indentless (s.goOn (t :: more)) := by
  rw [readOptional]
  simp [ht]

lemma readValue_value (ends : Token → Bool) (block : Bool) (s : Remaining) (more : List Token) :
    readValue ends block (s.goOn (.value :: more)) = readOptional ends block block (s.goOn more) := by
  rw [readValue]
  rfl

def plainNode (text : List Char) : Node := .scalar none none .plain (String.ofList text)

lemma readEntries_of_key {s s₁ s₂ : Remaining} {rest : List Token} {k v : Node}
    (hs : s.tokens = .key :: rest)
    (hkey : readOptional endsBlockNode true true (s.goOn rest) = (k, s₁))
    (hvalue : readValue endsBlockNode true s₁ = (v, s₂))
    (h₁ : s₁.tokens.length < s.tokens.length) (h₂ : s₂.tokens.length < s.tokens.length) :
    readEntries s = ((k, v) :: (readEntries s₂).1, (readEntries s₂).2) := by
  rw [readEntries]
  split
  · rename_i rest' hs'
    rw [hs, List.cons.injEq] at hs'
    obtain ⟨-, rfl⟩ := hs'
    rw [hkey]
    dsimp only
    rw [dif_pos h₁, hvalue]
    dsimp only
    rw [dif_pos h₂]
  · rename_i hs'
    rw [hs] at hs'
    cases hs'
  · rename_i hkey' _
    exact absurd hs (hkey' rest)

lemma readEntries_key (key : List Char) (s : Remaining) {ts more : List Token} {n : Node}
    (hvalue : readOptional endsBlockNode true true (s.goOn ts) = (n, s.goOn more))
    (hlength : more.length ≤ ts.length) :
    readEntries (s.goOn (.key :: .scalar .plain key :: .value :: ts)) =
      ((plainNode key, n) :: (readEntries (s.goOn more)).1, (readEntries (s.goOn more)).2) := by
  have hkey : readOptional endsBlockNode true true (s.goOn (.scalar .plain key :: .value :: ts)) =
      (plainNode key, s.goOn (.value :: ts)) := by
    rw [readOptional_of_ends rfl, readNode_scalar]
    rfl
  have hread : readValue endsBlockNode true (s.goOn (.value :: ts)) = (n, s.goOn more) := by
    rw [readValue_value, hvalue]
  refine readEntries_of_key rfl hkey hread (by simp) ?_
  simp only [Remaining.tokens_goOn, List.length_cons]
  omega

/-- Tokens that are read as the value of an entry, whatever follows them. -/
def Spells (ts : List Token) (n : Node) : Prop :=
  ∀ (s : Remaining) (more : List Token),
    readOptional endsBlockNode true true (s.goOn (ts ++ more)) = (n, s.goOn more)

lemma spells_scalar (style : Style) (text : List Char) :
    Spells [.scalar style text] (.scalar none none style (String.ofList text)) := by
  intro s more
  rw [List.singleton_append, readOptional_of_ends rfl, readNode_scalar]

/-- A key with the tokens and the node of its value. -/
structure SpelledEntry where
  key : List Char
  tokens : List Token
  node : Node
  spells : Spells tokens node

namespace SpelledEntry

def allTokens (e : SpelledEntry) : List Token :=
  .key :: .scalar .plain e.key :: .value :: e.tokens

def entry (e : SpelledEntry) : Node × Node := (plainNode e.key, e.node)

end SpelledEntry

/-- Entries of a block mapping, whatever follows them. -/
lemma readEntries_spelled (entries : List SpelledEntry) (s : Remaining) (more : List Token) :
    readEntries (s.goOn (entries.flatMap SpelledEntry.allTokens ++ more)) =
      (entries.map SpelledEntry.entry ++ (readEntries (s.goOn more)).1,
        (readEntries (s.goOn more)).2) := by
  induction entries with
  | nil => rfl
  | cons e entries ih =>
    have hvalue := e.spells s (entries.flatMap SpelledEntry.allTokens ++ more)
    have hentry := readEntries_key e.key s hvalue (by simp)
    rw [ih] at hentry
    rw [List.flatMap_cons, List.append_assoc]
    exact hentry

lemma readEntries_blockEnd (s : Remaining) (more : List Token) :
    readEntries (s.goOn (.blockEnd :: more)) = ([], s.goOn more) := by
  rw [readEntries]
  rfl

lemma spells_blockMapping (entries : List SpelledEntry) :
    Spells (.blockMappingStart :: (entries.flatMap SpelledEntry.allTokens ++ [.blockEnd]))
      (.mapping none none (entries.map SpelledEntry.entry)) := by
  intro s more
  rw [List.cons_append, readOptional_of_ends rfl, readNode_blockMapping, List.append_assoc,
    readEntries_spelled, List.singleton_append, readEntries_blockEnd, List.append_nil]

/-! ### Flow mappings -/

def memberNodes (e : String × String) : Node × Node :=
  (.scalar none none .doubleQuoted (String.ofList (unquoted e.1.toList .none [])),
    .scalar none none .doubleQuoted (String.ofList (unquoted e.2.toList .none [])))

lemma readFlowEntry_of_key {s s₁ s₂ : Remaining} {rest : List Token} {k v : Node}
    (hs : s.tokens = .key :: rest)
    (hkey : readOptional endsFlowKey false false (s.goOn rest) = (k, s₁))
    (hvalue : readValue endsFlowValue false s₁ = (v, s₂))
    (h₁ : s₁.tokens.length < s.tokens.length) (h₂ : s₂.tokens.length < s.tokens.length) :
    readFlowEntry s =
      ((k, v) :: (readFlowEntries false s₂).1, (readFlowEntries false s₂).2) := by
  rw [readFlowEntry]
  split
  · rename_i rest' hs'
    rw [hs, List.cons.injEq] at hs'
    obtain ⟨-, rfl⟩ := hs'
    rw [hkey]
    dsimp only
    rw [dif_pos h₁, hvalue]
    dsimp only
    rw [dif_pos h₂]
  · rename_i hkey'
    exact absurd hs (hkey' rest)

lemma readFlowEntry_of_item {s s₁ : Remaining} {k : Node} (hs : ∀ rest, s.tokens ≠ .key :: rest)
    (hitem : readNode false false s = (k, s₁)) (h₁ : s₁.tokens.length < s.tokens.length)
    (hmore : s₁.tokens.isEmpty = false) :
    readFlowEntry s =
      ((k, .blank) :: (readFlowEntries false s₁).1, (readFlowEntries false s₁).2) := by
  rw [readFlowEntry]
  split
  · rename_i rest hs'
    exact absurd hs' (hs rest)
  · rw [hitem]
    dsimp only
    rw [dif_pos h₁, hmore]
    rfl

lemma readFlowEntry_member (key value : List Char) (s : Remaining) (more : List Token) :
    readFlowEntry (s.goOn (.key :: .scalar .doubleQuoted key :: .value ::
        .scalar .doubleQuoted value :: more)) =
      ((.scalar none none .doubleQuoted (String.ofList key),
          .scalar none none .doubleQuoted (String.ofList value)) ::
        (readFlowEntries false (s.goOn more)).1, (readFlowEntries false (s.goOn more)).2) := by
  have hkey : readOptional endsFlowKey false false (s.goOn (.scalar .doubleQuoted key :: .value ::
      .scalar .doubleQuoted value :: more)) = (.scalar none none .doubleQuoted (String.ofList key),
        s.goOn (.value :: .scalar .doubleQuoted value :: more)) := by
    rw [readOptional_of_ends rfl, readNode_scalar]
  have hvalue : readValue endsFlowValue false (s.goOn (.value :: .scalar .doubleQuoted value ::
      more)) = (.scalar none none .doubleQuoted (String.ofList value), s.goOn more) := by
    rw [readValue_value, readOptional_of_ends rfl, readNode_scalar]
  refine readFlowEntry_of_key rfl hkey hvalue (by simp) ?_
  simp only [Remaining.tokens_goOn, List.length_cons]
  omega

lemma readFlowEntries_separator (first : Bool) (s : Remaining) {t : Token} (more : List Token)
    (ht : t ≠ .flowMappingEnd) :
    readFlowEntries first (s.goOn (separator first ++ t :: more)) =
      readFlowEntry (s.goOn (t :: more)) := by
  rw [readFlowEntries]
  cases first with
  | true =>
    split
    · rename_i heq
      exact absurd (List.cons.inj heq).1 ht
    · rfl
    · rename_i heq
      cases heq
  | false =>
    split
    · rename_i heq
      cases heq
    · rename_i t' rest _ heq
      obtain ⟨rfl, rfl⟩ := List.cons.inj heq
      rw [if_neg Bool.false_ne_true, if_pos rfl]
      split
      · rename_i heq' _
        exact absurd (List.cons.inj heq').1 ht
      · rfl
    · rename_i heq
      cases heq

lemma readFlowEntries_end (first : Bool) (s : Remaining) (more : List Token) :
    readFlowEntries first (s.goOn (.flowMappingEnd :: more)) = ([], s.goOn more) := by
  rw [readFlowEntries]
  rfl

/-- Members whose keys are marked. -/
lemma readFlowEntries_members (l : List (String × String)) (first : Bool) (s : Remaining)
    (more : List Token) :
    readFlowEntries first (s.goOn (memberTokens first l ++ .flowMappingEnd :: more)) =
      (l.map memberNodes, s.goOn more) := by
  induction l generalizing first with
  | nil => exact readFlowEntries_end first s more
  | cons e l ih =>
    rw [memberTokens, List.append_assoc]
    simp only [List.cons_append]
    rw [readFlowEntries_separator first s _ (by simp), readFlowEntry_member, ih false]
    rfl

/-- A colon without a key breaks the mapping, and nothing after it is read. -/
lemma readFlowEntries_broken (l : List (String × String)) (key : List Char) (first : Bool)
    (s : Remaining) (more : List Token) :
    ∃ entries, (.broken, .broken) ∈ entries ∧
      readFlowEntries first (s.goOn (brokenTokens first key l ++ more)) = (entries, s.goOn []) := by
  induction l generalizing first with
  | nil =>
    rw [brokenTokens, List.append_assoc, List.cons_append, List.singleton_append,
      readFlowEntries_separator first s _ (by simp)]
    have hcolon : readFlowEntries false (s.goOn (.value :: more)) =
        ([(.broken, .broken)], s.goOn []) := by
      rw [readFlowEntries]
      rfl
    have hentry : readFlowEntry (s.goOn (.scalar .doubleQuoted key :: .value :: more)) =
        ((.scalar none none .doubleQuoted (String.ofList key), .blank) ::
            (readFlowEntries false (s.goOn (.value :: more))).1,
          (readFlowEntries false (s.goOn (.value :: more))).2) := by
      have hkey (rest : List Token) :
          (s.goOn (.scalar .doubleQuoted key :: .value :: more)).tokens ≠ .key :: rest := by
        intro heq
        cases heq
      refine readFlowEntry_of_item hkey (readNode_scalar false false s _ _ _) ?_ rfl
      simp
    rw [hentry, hcolon]
    exact ⟨_, List.mem_cons_of_mem _ List.mem_cons_self, rfl⟩
  | cons e l ih =>
    obtain ⟨entries, hbroken, hread⟩ := ih false
    rw [brokenTokens, List.append_assoc]
    simp only [List.cons_append]
    rw [readFlowEntries_separator first s _ (by simp), readFlowEntry_member, hread]
    exact ⟨_, List.mem_cons_of_mem _ hbroken, rfl⟩

lemma spells_flowMapping (l : List (String × String)) :
    Spells (.flowMappingStart :: (memberTokens true l ++ [.flowMappingEnd]))
      (.mapping none none (l.map memberNodes)) := by
  intro s more
  rw [List.cons_append, readOptional_of_ends rfl, readNode_flowMapping, List.append_assoc,
    List.singleton_append, readFlowEntries_members]

end WorkflowOperator.Yaml
