import WorkflowOperator.Proofs.Yaml.Reading
import WorkflowOperator.Yaml.Value

/-!
# From nodes to values

Nodes that stand for a value wherever they are, and what is known of a mapping some of whose entries are
known: their values come first, in order, and a node that stands for no value spoils every mapping that
it is in.
-/

namespace WorkflowOperator.Yaml

namespace Value

def record (l : List (String × Value)) : Value := .mapping (l.map fun e => (.string e.1, e.2))

lemma pair_injective :
    Function.Injective fun e : String × Value => ((.string e.1 : Value), e.2) := by
  intro e e' h
  rw [Prod.mk.injEq, Value.string.injEq] at h
  exact Prod.ext h.1 h.2

lemma record_inj {l l' : List (String × Value)} : record l = record l' ↔ l = l' := by
  rw [record, record, Value.mapping.injEq, (List.map_injective_iff.mpr pair_injective).eq_iff]

/-- Whether a node stands for a value wherever it is, if that many collections may stand inside each
other. -/
def IsRead (depth : Nat) (n : Node) (v : Value) : Prop :=
  ∀ (anchors : Anchors) (d : Nat) (place : Place), depth ≤ d → ofNode anchors d place n = pure v

def IsUnreadable (n : Node) : Prop :=
  ∀ (anchors : Anchors) (depth : Nat) (place : Place) (aliases : Nat) (out : Value × Nat),
    (ofNode anchors depth place n).run aliases ≠ .ok out

def addEntry (anchors : Anchors) (depth : Nat) (place : Place) (seen : List (Value × Value))
    (e : Node × Node) : Bounded (List (Value × Value)) := do
  let k ← ofNode anchors depth place e.1
  if seen.any fun s => s.1.same k then throw (.unexpected place none)
  let v ← ofNode anchors depth (entryPlace place e.1) e.2
  return seen ++ [(k, v)]

lemma ofNode_mapping (anchors : Anchors) (depth : Nat) (place : Place) (anchor : Option Nat)
    (tag : Option String) (entries : List (Node × Node)) :
    ofNode anchors (depth + 1) place (.mapping anchor tag entries) =
      (entries.foldlM (addEntry anchors depth place) [] >>= fun values =>
        pure (underTag tag (.mapping values))) := by
  rw [ofNode]
  rfl

/-! ### Nodes that stand for a value -/

lemma isRead_scalar {style : Style} {text : String} {v : Value}
    (h : ∀ place, ofScalar place none style text = .ok v) (depth : Nat) :
    IsRead depth (.scalar none none style text) v := by
  intro anchors d place _
  rw [ofNode]
  change (underTag none <$> (liftM (ofScalar place none style text) : Bounded Value)) = pure v
  rw [h place]
  rfl

lemma isRead_text {style : Style} (hstyle : style ≠ .plain) (text : String) (depth : Nat) :
    IsRead depth (.scalar none none style text) (.string text) := by
  refine isRead_scalar (fun place => ?_) depth
  rw [ofScalar, Core.meaning, if_neg hstyle]

lemma isRead_plain {text : String} {m : Core.Meaning} {v : Value} (hm : Core.plainMeaning text = m)
    (hv : ∀ place, (match m with
      | .null => .ok .null
      | .bool b => .ok (.bool b)
      | .int n => .ok (.int n)
      | .float x => .ok (.float x)
      | .text => .ok (.string text)
      | .wide => .error (.unexpected place none)
      | .mistagged => .error (.unexpected place (some text)) : Except Fault Value) = .ok v)
    (depth : Nat) : IsRead depth (.scalar none none .plain text) v := by
  refine isRead_scalar (fun place => ?_) depth
  rw [ofScalar, Core.meaning, if_pos rfl, hm]
  exact hv place

/-- An entry of a mapping that stands for a text and a value. -/
structure ReadEntry (depth : Nat) where
  nodes : Node × Node
  key : String
  value : Value
  key_isRead : IsRead depth nodes.1 (.string key)
  value_isRead : IsRead depth nodes.2 value

namespace ReadEntry
variable {depth : Nat}

def values (e : ReadEntry depth) : Value × Value := (.string e.key, e.value)

end ReadEntry

section
variable {anchors : Anchors} {depth d : Nat} {place : Place}

lemma addEntry_of_isRead (hd : depth ≤ d) (e : ReadEntry depth) {seen : List (Value × Value)}
    (hseen : ∀ s ∈ seen, s.1.same (.string e.key) = false) :
    addEntry anchors d place seen e.nodes = pure (seen ++ [e.values]) := by
  have hany : (seen.any fun s => s.1.same (.string e.key)) = false := by
    rw [List.any_eq_false]
    intro s hs
    simp [hseen s hs]
  rw [addEntry, e.key_isRead anchors d place hd, pure_bind, hany]
  simp only [Bool.false_eq_true, if_false]
  rw [e.value_isRead anchors d _ hd, pure_bind]
  rfl

/-- Entries under different keys are read one after the other. -/
lemma foldlM_addEntry (hd : depth ≤ d) (l : List (ReadEntry depth)) (more : List (Node × Node))
    {seen : List (Value × Value)} (hkeys : (l.map ReadEntry.key).Nodup)
    (hseen : ∀ e ∈ l, ∀ s ∈ seen, s.1.same (.string e.key) = false) :
    (l.map ReadEntry.nodes ++ more).foldlM (addEntry anchors d place) seen =
      more.foldlM (addEntry anchors d place) (seen ++ l.map ReadEntry.values) := by
  induction l generalizing seen with
  | nil => simp
  | cons e l ih =>
    rw [List.map_cons, List.nodup_cons] at hkeys
    have hnext : ∀ e' ∈ l, ∀ s ∈ seen ++ [e.values], s.1.same (.string e'.key) = false := by
      intro e' he' s hs
      rcases List.mem_append.mp hs with hs | hs
      · exact hseen e' (List.mem_cons_of_mem _ he') s hs
      · rw [List.mem_singleton] at hs
        subst hs
        have hne : e.key ≠ e'.key := fun h => hkeys.1 (List.mem_map.mpr ⟨e', he', h.symm⟩)
        exact beq_false_of_ne hne
    rw [List.map_cons, List.cons_append, List.foldlM_cons,
      addEntry_of_isRead hd e (hseen e List.mem_cons_self), pure_bind, ih hkeys.2 hnext]
    simp

lemma isRead_mapping (l : List (ReadEntry depth)) (hkeys : (l.map ReadEntry.key).Nodup) :
    IsRead (depth + 1) (.mapping none none (l.map ReadEntry.nodes))
      (.mapping (l.map ReadEntry.values)) := by
  intro anchors d place hd
  obtain ⟨d, rfl⟩ : ∃ k, d = k + 1 := ⟨d - 1, by omega⟩
  have hseen : ∀ e ∈ l, ∀ s ∈ ([] : List (Value × Value)), s.1.same (.string e.key) = false := by
    simp
  rw [ofNode_mapping, ← List.append_nil (l.map ReadEntry.nodes),
    foldlM_addEntry (Nat.le_of_succ_le_succ hd) l [] hkeys hseen]
  rfl

/-! ### Nodes that stand for none -/

lemma isUnreadable_broken : IsUnreadable .broken := by
  intro anchors depth place aliases out h
  rw [ofNode] at h
  cases h

lemma run_addEntry {seen out : List (Value × Value)} {e : Node × Node} {aliases aliases' : Nat}
    (h : (addEntry anchors d place seen e).run aliases = .ok (out, aliases')) :
    ∃ k v n, (ofNode anchors d place e.1).run aliases = .ok (k, n) ∧
      (ofNode anchors d (entryPlace place e.1) e.2).run n = .ok (v, aliases') ∧
        out = seen ++ [(k, v)] := by
  rw [addEntry, StateT.run_bind] at h
  cases hk : (ofNode anchors d place e.1).run aliases with
  | error fault =>
    rw [hk] at h
    cases h
  | ok k =>
    rw [hk] at h
    change StateT.run (if (seen.any fun s => s.1.same k.1) = true then _ else _) k.2 = _ at h
    split at h
    · cases h
    · rw [StateT.run_bind] at h
      cases hv : (ofNode anchors d (entryPlace place e.1) e.2).run k.2 with
      | error fault =>
        rw [hv] at h
        cases h
      | ok v =>
        rw [hv] at h
        cases h
        exact ⟨k.1, v.1, k.2, rfl, hv, rfl⟩

lemma run_foldlM_cons {seen out : List (Value × Value)} {e : Node × Node}
    {l : List (Node × Node)} {aliases aliases' : Nat}
    (h : ((e :: l).foldlM (addEntry anchors d place) seen).run aliases = .ok (out, aliases')) :
    ∃ next n, (addEntry anchors d place seen e).run aliases = .ok (next, n) ∧
      (l.foldlM (addEntry anchors d place) next).run n = .ok (out, aliases') := by
  rw [List.foldlM_cons, StateT.run_bind] at h
  cases hnext : (addEntry anchors d place seen e).run aliases with
  | error fault =>
    rw [hnext] at h
    cases h
  | ok next =>
    rw [hnext] at h
    exact ⟨next.1, next.2, rfl, h⟩

/-- Entries that have been read stay in front. -/
lemma prefix_of_foldlM {seen out : List (Value × Value)} {l : List (Node × Node)}
    {aliases aliases' : Nat}
    (h : (l.foldlM (addEntry anchors d place) seen).run aliases = .ok (out, aliases')) :
    seen <+: out := by
  induction l generalizing seen aliases with
  | nil =>
    cases h
    exact List.prefix_refl _
  | cons e l ih =>
    obtain ⟨next, n, hnext, hrest⟩ := run_foldlM_cons h
    obtain ⟨k, v, _, -, -, rfl⟩ := run_addEntry hnext
    exact (List.prefix_append _ _).trans (ih hrest)

lemma foldlM_of_isUnreadable {l : List (Node × Node)} {e : Node × Node} (he : e ∈ l)
    (hbroken : IsUnreadable e.1 ∨ IsUnreadable e.2) {seen out : List (Value × Value)}
    {aliases aliases' : Nat} :
    (l.foldlM (addEntry anchors d place) seen).run aliases ≠ .ok (out, aliases') := by
  intro h
  induction l generalizing seen aliases with
  | nil => cases he
  | cons e' l ih =>
    obtain ⟨next, n, hnext, hrest⟩ := run_foldlM_cons h
    rcases List.mem_cons.mp he with rfl | he
    · obtain ⟨k, v, m, hk, hv, -⟩ := run_addEntry hnext
      rcases hbroken with hbroken | hbroken
      · exact hbroken _ _ _ _ _ hk
      · exact hbroken _ _ _ _ _ hv
    · exact ih he hrest

lemma run_mapping {anchor : Option Nat} {tag : Option String} {entries : List (Node × Node)}
    {aliases aliases' : Nat} {out : Value}
    (h : (ofNode anchors d place (.mapping anchor tag entries)).run aliases = .ok (out, aliases')) :
    ∃ k values, d = k + 1 ∧
      (entries.foldlM (addEntry anchors k place) []).run aliases = .ok (values, aliases') ∧
      out = underTag tag (.mapping values) := by
  cases d with
  | zero =>
    rw [ofNode] at h
    cases h
  | succ k =>
    rw [ofNode_mapping, StateT.run_bind] at h
    cases hfold : (entries.foldlM (addEntry anchors k place) []).run aliases with
    | error fault =>
      rw [hfold] at h
      cases h
    | ok values =>
      rw [hfold] at h
      cases h
      exact ⟨k, values.1, rfl, hfold, rfl⟩

lemma isUnreadable_mapping {anchor : Option Nat} {tag : Option String}
    {entries : List (Node × Node)} {e : Node × Node} (he : e ∈ entries)
    (hbroken : IsUnreadable e.1 ∨ IsUnreadable e.2) :
    IsUnreadable (.mapping anchor tag entries) := by
  intro anchors depth place aliases out h
  obtain ⟨k, values, -, hfold, -⟩ := run_mapping h
  exact foldlM_of_isUnreadable he hbroken hfold

/-- A mapping some of whose entries are known: if it stands for a value, theirs come first. -/
lemma prefix_of_mapping {depth : Nat} (l : List (ReadEntry depth)) (more : List (Node × Node))
    (hkeys : (l.map ReadEntry.key).Nodup) (hd : depth < d) {aliases aliases' : Nat} {out : Value}
    (h : (ofNode anchors d place (.mapping none none (l.map ReadEntry.nodes ++ more))).run aliases =
      .ok (out, aliases')) :
    ∃ values, l.map ReadEntry.values <+: values ∧ out = .mapping values := by
  obtain ⟨k, values, rfl, hfold, rfl⟩ := run_mapping h
  refine ⟨values, ?_, rfl⟩
  rw [foldlM_addEntry (Nat.le_of_lt_succ hd) l more hkeys (by simp), List.nil_append] at hfold
  exact prefix_of_foldlM hfold

end

/-! ### Entries of block mappings -/

/-- An entry of a block mapping from its tokens to its value. Its key is a plain word that is nothing but
a text. -/
structure ValuedEntry (depth : Nat) extends SpelledEntry where
  value : Value
  key_isText : Core.plainMeaning (String.ofList key) = .text
  isRead : IsRead depth node value

namespace ValuedEntry
variable {depth : Nat}

def pair (e : ValuedEntry depth) : String × Value := (String.ofList e.key, e.value)

def read (e : ValuedEntry depth) : ReadEntry depth where
  nodes := e.entry
  key := String.ofList e.key
  value := e.value
  key_isRead := isRead_plain e.key_isText (fun _ => rfl) depth
  value_isRead := e.isRead

/-- An entry whose value is a block mapping. -/
def group (key : List Char) (hkey : Core.plainMeaning (String.ofList key) = .text)
    (l : List (ValuedEntry depth)) (hl : (l.map fun e => String.ofList e.key).Nodup) :
    ValuedEntry (depth + 1) where
  key
  tokens := .blockMappingStart ::
    ((l.map toSpelledEntry).flatMap SpelledEntry.allTokens ++ [.blockEnd])
  node := .mapping none none ((l.map toSpelledEntry).map SpelledEntry.entry)
  spells := spells_blockMapping (l.map toSpelledEntry)
  value := .mapping (l.map fun e => (.string (String.ofList e.key), e.value))
  key_isText := hkey
  isRead := by
    have hkeys : ((l.map read).map ReadEntry.key).Nodup := by
      rw [List.map_map]
      exact hl
    have hread := isRead_mapping (l.map read) hkeys
    rw [List.map_map] at hread ⊢
    rw [List.map_map] at hread
    exact hread

end ValuedEntry

/-! ### Whole texts -/

/-- A text that stands for a value has the token of its end, and its root stands for the value. -/
lemma of_ofText {text : String} {v : Value} (h : ofText text = .ok v) :
    .streamEnd ∈ tokens text.toList ∧
      ∃ aliases aliases', (ofNode (Document.ofText text).anchors maxDepth ""
        (Document.ofText text).root).run aliases = .ok (v, aliases') := by
  unfold ofText at h
  dsimp only at h
  cases hrun : (ofNode (Document.ofText text).anchors maxDepth "" (Document.ofText text).root).run
      (aliasesPerStep * (Document.ofText text).root.steps) with
  | error fault =>
    rw [hrun] at h
    cases h
  | ok out =>
    rw [hrun] at h
    change (if (Document.ofText text).complete = true then _ else _) = _ at h
    split at h
    · rename_i hcomplete
      cases h
      exact ⟨streamEnd_mem_of_complete hcomplete, _, out.2, hrun⟩
    · cases h

lemma document_of_blockMapping {text : String} {ts : List Token}
    (h : tokens text.toList = .blockMappingStart :: ts) :
    ∃ s : Remaining, Document.ofText text =
      ⟨.mapping none none (readEntries (s.goOn ts)).1,
        Document.endsText (readEntries (s.goOn ts)).2.tokens⟩ := by
  refine ⟨⟨[], [], Document.defaultHandles⟩, ?_⟩
  rw [Document.ofText, h]
  change Document.ofRoot (readNode true false ((⟨[], [], Document.defaultHandles⟩ : Remaining).goOn
    (.blockMappingStart :: ts))) = _
  rw [readNode_blockMapping]
  rfl

section
variable {text : String} {l : List (ValuedEntry 1)}

lemma document_of_entries {more : List Token}
    (h : tokens text.toList =
      .blockMappingStart :: (l.flatMap (fun e => e.allTokens) ++ more)) :
    ∃ s : Remaining, Document.ofText text =
      ⟨.mapping none none ((l.map ValuedEntry.read).map ReadEntry.nodes ++
        (readEntries (s.goOn more)).1), Document.endsText (readEntries (s.goOn more)).2.tokens⟩ := by
  obtain ⟨s, hdocument⟩ := document_of_blockMapping h
  refine ⟨s, ?_⟩
  have hentries := readEntries_spelled (l.map ValuedEntry.toSpelledEntry) s more
  rw [List.flatMap_map] at hentries
  rw [hdocument, hentries, List.map_map, List.map_map]
  rfl

lemma values_of_entries (l : List (ValuedEntry 1)) :
    (l.map ValuedEntry.read).map ReadEntry.values =
      (l.map ValuedEntry.pair).map fun e => (.string e.1, e.2) := by
  rw [List.map_map, List.map_map]
  rfl

/-- A text that is nothing but entries under different keys stands for the record of them. -/
lemma ofText_of_entries (hkeys : (l.map fun e => e.pair.1).Nodup)
    (h : tokens text.toList = .blockMappingStart ::
      (l.flatMap (fun e => e.allTokens) ++ [.blockEnd, .streamEnd])) :
    ofText text = .ok (.record (l.map ValuedEntry.pair)) := by
  obtain ⟨s, hdocument⟩ := document_of_entries h
  rw [readEntries_blockEnd, List.append_nil] at hdocument
  have hread := isRead_mapping (l.map ValuedEntry.read) (by rwa [List.map_map])
  rw [values_of_entries] at hread
  rw [ofText, hdocument]
  dsimp only
  rw [hread _ _ _ (by decide)]
  rfl

/-- A text that starts with entries under different keys: if it stands for a value, these are its first
entries. -/
lemma entries_of_ofText (hkeys : (l.map fun e => e.pair.1).Nodup)
    (h : .blockMappingStart :: l.flatMap (fun e => e.allTokens) <+: tokens text.toList)
    {v : Value} (hv : ofText text = .ok v) :
    ∃ values, ((l.map ValuedEntry.pair).map fun e => ((.string e.1 : Value), e.2)) <+: values ∧
      v = .mapping values := by
  obtain ⟨more, hmore⟩ := h
  obtain ⟨s, hdocument⟩ := document_of_entries hmore.symm
  obtain ⟨-, aliases, aliases', hrun⟩ := of_ofText hv
  rw [hdocument] at hrun
  rw [← values_of_entries]
  exact prefix_of_mapping _ _ (by rwa [List.map_map]) (by decide) hrun

/-- A text with an object one of whose keys is not marked stands for no value. -/
lemma ofText_ne_of_broken {name key : List Char} {front : List (String × String)}
    (h : .blockMappingStart :: (l.flatMap (fun e => e.allTokens) ++
      .key :: .scalar .plain name :: .value :: .flowMappingStart :: brokenTokens true key front) <+:
        tokens text.toList) (v : Value) : ofText text ≠ .ok v := by
  intro hv
  obtain ⟨more, hmore⟩ := h
  have htokens : tokens text.toList = .blockMappingStart :: (l.flatMap (fun e => e.allTokens) ++
      .key :: .scalar .plain name :: .value :: .flowMappingStart ::
        (brokenTokens true key front ++ more)) := by
    rw [← hmore]
    simp
  obtain ⟨s, hdocument⟩ := document_of_entries htokens
  obtain ⟨-, aliases, aliases', hrun⟩ := of_ofText hv
  obtain ⟨entries, hbroken, hread⟩ := readFlowEntries_broken front key true s more
  have hvalue : readOptional endsBlockNode true true
      (s.goOn (.flowMappingStart :: (brokenTokens true key front ++ more))) =
        (.mapping none none entries, s.goOn []) := by
    rw [readOptional_of_ends rfl, readNode_flowMapping, hread]
  have hobject : IsUnreadable (.mapping none none entries) :=
    isUnreadable_mapping hbroken (Or.inl isUnreadable_broken)
  rw [readEntries_key name s hvalue (by simp)] at hdocument
  rw [hdocument] at hrun
  have hentry : (plainNode name, .mapping none none entries) ∈
      (l.map ValuedEntry.read).map ReadEntry.nodes ++
        ((plainNode name, .mapping none none entries) :: (readEntries (s.goOn [])).1) :=
    List.mem_append_right _ List.mem_cons_self
  exact isUnreadable_mapping hentry (Or.inr hobject) _ _ _ _ _ hrun

end

end Value

end WorkflowOperator.Yaml
