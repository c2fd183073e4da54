import WorkflowOperator.Proofs.Job.Content
import WorkflowOperator.Proofs.Yaml.Core
import WorkflowOperator.Proofs.Yaml.FlowScanning
import WorkflowOperator.Proofs.Yaml.Valuing

/-!
# The tokens of a job document

Each field is an entry of the mapping that it stands in, each group of fields an entry of the outermost
mapping, and the reader of tokens goes from the start of one part to the start of the next. It leaves
behind the tokens of the entries, whose values are those of the stage exactly if the quotes keep them.
-/

namespace WorkflowOperator

open Yaml Text

/-! ### Entries -/

namespace LineValue

def token : LineValue → Token
  | quoted s => .scalar .doubleQuoted (unquoted s.toList .none [])
  | count n => .scalar .plain (countText n).toList
  | flag b => .scalar .plain (flagText b).toList

def node : LineValue → Node
  | quoted s => .scalar none none .doubleQuoted (String.ofList (unquoted s.toList .none []))
  | count n => plainNode (countText n).toList
  | flag b => plainNode (flagText b).toList

def found : LineValue → Value
  | quoted s => .string (String.ofList (unquoted s.toList .none []))
  | count n => .int n.toNat
  | flag b => .bool b

lemma spells (v : LineValue) : Spells [v.token] v.node := by
  cases v with
  | quoted s => exact spells_scalar _ _
  | count n => exact spells_scalar _ _
  | flag b => exact spells_scalar _ _

lemma isRead (v : LineValue) (depth : Nat) : Value.IsRead depth v.node v.found := by
  cases v with
  | quoted s => exact Value.isRead_text (by decide) _ depth
  | count n =>
    have hbound : n.toNat < 2 ^ 64 := Nat.lt_trans n.toNat_lt (by decide)
    have hmeaning : Core.plainMeaning (String.ofList (countText n).toList) = .int n.toNat := by
      rw [String.ofList_toList]
      exact Core.plainMeaning_toString hbound
    exact Value.isRead_plain hmeaning (fun _ => rfl) depth
  | flag b =>
    have hmeaning : Core.plainMeaning (String.ofList (flagText b).toList) = .bool b := by
      rw [String.ofList_toList]
      exact Core.plainMeaning_bool b
    exact Value.isRead_plain hmeaning (fun _ => rfl) depth

lemma found_eq_value_iff (v : LineValue) : v.found = v.value ↔ v.Kept := by
  cases v with
  | quoted s =>
    rw [found, value, Value.string.injEq, kept_quoted, ← unquoted_eq_self_iff, ← String.toList_inj,
      String.toList_ofList]
  | count n => simp [found, value]
  | flag b => simp [found, value]

end LineValue

namespace DocumentField

def valued (depth : Nat) (f : DocumentField) : Value.ValuedEntry depth where
  key := f.key.toList
  tokens := [f.value.token]
  node := f.value.node
  spells := f.value.spells
  value := f.value.found
  key_isText := f.isKey.isText
  isRead := f.value.isRead depth

def body (f : DocumentField) : List Char := f.key.toList ++ ':' :: ' ' :: f.value.text.toList

lemma written_line (depth : Nat) (f : DocumentField) :
    (f.line depth).written = List.replicate (2 * depth) ' ' ++ (f.body ++ ['\n']) := by
  simp [line, DocumentLine.written, body]

end DocumentField

namespace DocumentPart

lemma keys_valued (fs : List DocumentField) :
    ((fs.map (DocumentField.valued 0)).map fun e => String.ofList e.key) =
      fs.map DocumentField.key := by
  rw [List.map_map]
  exact List.map_congr_left fun f _ => String.ofList_toList

def valued : DocumentPart → Value.ValuedEntry 1
  | field f => f.valued 1
  | group key first rest isKey distinct =>
    .group key.toList isKey.isText ((first :: rest).map (DocumentField.valued 0)) (by
      rw [keys_valued]
      exact distinct)

lemma key_valued (p : DocumentPart) : p.valued.key = p.key.toList := by
  cases p <;> rfl

lemma value_valued_eq_iff (p : DocumentPart) : p.valued.value = p.value ↔ p.Kept := by
  cases p with
  | field f =>
    have hkept : (field f).Kept ↔ f.value.Kept := by simp [Kept, fields]
    rw [hkept]
    exact f.value.found_eq_value_iff
  | group key first rest isKey distinct =>
    have hfound : (group key first rest isKey distinct).valued.value =
        .record ((first :: rest).map fun f => (f.key, f.value.found)) := by
      change Value.mapping _ = Value.mapping _
      rw [List.map_map, List.map_map]
      refine congrArg Value.mapping (List.map_congr_left fun f _ => ?_)
      change (Value.string (String.ofList f.key.toList), f.value.found) = _
      rw [String.ofList_toList]
      rfl
    rw [hfound, value, Value.record_inj, List.map_inj_left]
    refine forall_congr' fun f => forall_congr' fun _ => ?_
    rw [DocumentField.entry, Prod.mk.injEq, ← f.value.found_eq_value_iff]
    exact and_iff_right rfl

lemma pair_valued_eq_iff (p : DocumentPart) : p.valued.pair = (p.key, p.value) ↔ p.Kept := by
  rw [Value.ValuedEntry.pair, Prod.mk.injEq, key_valued, String.ofList_toList, value_valued_eq_iff]
  exact and_iff_right rfl

end DocumentPart

/-- The entry of a literal block that is read as a text. -/
def blockEntry {key : String} (isKey : IsKey key) (text : List Char) : Value.ValuedEntry 1 where
  key := key.toList
  tokens := [.scalar .literal text]
  node := .scalar none none .literal (String.ofList text)
  spells := spells_scalar _ _
  value := .string (String.ofList text)
  key_isText := isKey.isText
  isRead := Value.isRead_text (by decide) _ 1

def memberEntry (e : String × String) : Value.ReadEntry 0 where
  nodes := memberNodes e
  key := String.ofList (unquoted e.1.toList .none [])
  value := .string (String.ofList (unquoted e.2.toList .none []))
  key_isRead := Value.isRead_text (by decide) _ 0
  value_isRead := Value.isRead_text (by decide) _ 0

lemma key_memberEntry {e : String × String} (h : KeptByQuotes e.1.toList) :
    (memberEntry e).key = e.1 := by
  change String.ofList (unquoted e.1.toList .none []) = e.1
  rw [(unquoted_eq_self_iff _).mpr h, String.ofList_toList]

def objectEntry {key : String} (isKey : IsKey key) {m : TextMap String}
    (hm : ∀ e ∈ m.toList, KeptByQuotes e.1.toList) : Value.ValuedEntry 1 where
  key := key.toList
  tokens := .flowMappingStart :: (memberTokens true m.toList ++ [.flowMappingEnd])
  node := .mapping none none (m.toList.map memberNodes)
  spells := spells_flowMapping m.toList
  value := .record (m.toList.map fun e => (e.1, (memberEntry e).value))
  key_isText := isKey.isText
  isRead := by
    have hkey : ∀ e ∈ m.toList, (memberEntry e).key = e.1 := fun e he => key_memberEntry (hm e he)
    have hkeys : ((m.toList.map memberEntry).map Value.ReadEntry.key).Nodup := by
      have hnames : (m.toList.map memberEntry).map Value.ReadEntry.key = m.toList.map Prod.fst := by
        rw [List.map_map]
        exact List.map_congr_left hkey
      rw [hnames]
      exact m.nodup_keys
    have hvalues : (m.toList.map memberEntry).map Value.ReadEntry.values =
        (m.toList.map fun e => (e.1, (memberEntry e).value)).map fun e => (.string e.1, e.2) := by
      rw [List.map_map, List.map_map]
      refine List.map_congr_left fun e he => ?_
      change (Value.string (memberEntry e).key, (memberEntry e).value) = _
      rw [hkey e he]
      rfl
    have hread := Value.isRead_mapping (m.toList.map memberEntry) hkeys
    rw [hvalues, List.map_map] at hread
    exact hread

lemma pair_objectEntry_eq_iff {key : String} (isKey : IsKey key) {m : TextMap String}
    (hm : ∀ e ∈ m.toList, KeptByQuotes e.1.toList) :
    (objectEntry isKey hm).pair = (key, .record (m.toList.map fun e => (e.1, .string e.2))) ↔
      ∀ e ∈ m.toList, KeptByQuotes e.2.toList := by
  have hkey : String.ofList (objectEntry isKey hm).key = key := String.ofList_toList
  rw [Value.ValuedEntry.pair, Prod.mk.injEq, hkey]
  change _ ∧ Value.record (m.toList.map fun e => (e.1, (memberEntry e).value)) = _ ↔ _
  rw [Value.record_inj, List.map_inj_left]
  refine (and_iff_right rfl).trans (forall_congr' fun e => forall_congr' fun _ => ?_)
  change (e.1, Value.string (String.ofList (unquoted e.2.toList .none []))) = _ ↔ _
  rw [Prod.mk.injEq, Value.string.injEq, ← String.toList_inj, ← String.toList_inj,
    String.toList_ofList, unquoted_eq_self_iff]
  exact and_iff_right rfl

/-! ### Lines -/

namespace Yaml.Reader

lemma startsWord_append {key : List Char} (h : isWord key = true) (s : List Char) :
    StartsWord (key ++ s) := by
  obtain ⟨c, rest, rfl, hc⟩ := exists_cons_of_isWord h
  intro d hd
  cases hd
  exact hc

section
variable {r : Reader} {column : Nat} {indent : Int} {outer : List Int} {tokens : List Token}

lemma At.finish_value {v : LineValue} {n : Nat} {next : List Char}
    (h : r.At (v.text.toList ++ '\n' :: (List.replicate n ' ' ++ next)) column false indent outer
      tokens)
    (hn : n ≤ indent) (hnext : StartsWord next) (hend : .streamEnd ∈ r.finish)
    {indent' : Int} {outer' : List Int} {tokens' : List Token}
    (hblocks : closing n indent outer (v.token :: tokens) = (indent', outer', tokens')) :
    ∃ r' : Reader, r'.finish = r.finish ∧ r'.At next n true indent' outer' tokens' := by
  have hnone := h.streamEnd_notMem_tokens
  have hplain : ∀ word : List Char, isWord word = true → v.text.toList = word →
      v.token = .scalar .plain word →
      ∃ r' : Reader, r'.finish = r.finish ∧ r'.At next n true indent' outer' tokens' := by
    intro word hword htext htoken
    rw [htext] at h
    rw [htoken] at hblocks
    obtain ⟨p, hp, hfinish⟩ := h.finish_word hword hnext hn
    subst hp
    exact ⟨_, hfinish.symm, at_word hnext p hblocks (by simpa using hnone)⟩
  cases v with
  | quoted s =>
    have htext : (LineValue.quoted s).text.toList ++ '\n' :: (List.replicate n ' ' ++ next) =
        '"' :: (s.toList.flatMap Json.escape ++
          '"' :: '\n' :: (List.replicate n ' ' ++ next)) := by
      simp [LineValue.text, Json.quote]
    rw [htext] at h
    obtain ⟨p, hfinish⟩ := h.finish_quoted hend
    exact ⟨_, hfinish.symm, at_next_line hnext n p hblocks (by simpa using hnone)⟩
  | count m => exact hplain _ (isWord_countText m) rfl rfl
  | flag b => exact hplain _ (isWord_flagText b) rfl rfl

lemma exists_cons_text (v : LineValue) :
    ∃ c rest, v.text.toList = c :: rest ∧ isOrdinary c = true := by
  have hplain : ∀ word : List Char, isWord word = true →
      ∃ c rest, word = c :: rest ∧ isOrdinary c = true := by
    intro word hword
    obtain ⟨c, rest, hcons, hc⟩ := exists_cons_of_isWord hword
    exact ⟨c, rest, hcons, isOrdinary_of_isWordChar hc⟩
  cases v with
  | quoted s =>
    have htext : (LineValue.quoted s).text.toList = '"' :: (s.toList.flatMap Json.escape ++ ['"']) := by
      simp [LineValue.text, Json.quote]
    exact ⟨_, _, htext, by decide⟩
  | count n => exact hplain _ (isWord_countText n)
  | flag b => exact hplain _ (isWord_flagText b)

lemma At.finish_field {f : DocumentField} {n : Nat} {next : List Char}
    (h : r.At (f.body ++ '\n' :: (List.replicate n ' ' ++ next)) column true indent outer tokens)
    (hn : n ≤ column) (hnext : StartsWord next) (hend : .streamEnd ∈ r.finish)
    {indent' : Int} {outer' : List Int} {tokens' : List Token}
    (hblocks : closing n column (if indent < column then indent :: outer else outer)
      (f.value.token :: .value :: .scalar .plain f.key.toList :: .key ::
        (if indent < column then .blockMappingStart :: tokens else tokens)) =
      (indent', outer', tokens')) :
    ∃ r' : Reader, r'.finish = r.finish ∧ r'.At next n true indent' outer' tokens' := by
  obtain ⟨c, more, hcons, hc⟩ := exists_cons_text f.value
  have htext : f.body ++ '\n' :: (List.replicate n ' ' ++ next) = f.key.toList ++ ':' :: ' ' :: c ::
      (more ++ '\n' :: (List.replicate n ' ' ++ next)) := by
    simp [DocumentField.body, hcons]
  rw [htext] at h
  obtain ⟨r', column', hfinish, hvalue⟩ := h.finish_key_value f.isKey.1 f.isKey.2.1 hc
  rw [← List.cons_append, ← hcons] at hvalue
  rw [← hfinish] at hend ⊢
  exact hvalue.finish_value (by omega) hnext hend hblocks

lemma reverse_allTokens_valued (f : DocumentField) (depth : Nat) (ts : List Token) :
    f.value.token :: .value :: .scalar .plain f.key.toList :: .key :: ts =
      (f.valued depth).allTokens.reverse ++ ts := by
  rfl

lemma startsWord_body (f : DocumentField) (s : List Char) : StartsWord (f.body ++ '\n' :: s) := by
  have hkey := startsWord_append f.isKey.1 (':' :: ' ' :: f.value.text.toList ++ '\n' :: s)
  simpa [DocumentField.body] using hkey

/-- The fields of a group. The mapping that they stand in ends with them. -/
lemma At.finish_fields {first : DocumentField} {rest : List DocumentField} {next : List Char}
    (h : r.At (first.body ++ '\n' :: (rest.flatMap (fun f => (f.line 1).written) ++ next)) 2 true
      indent outer tokens)
    (hopen : (if indent < (2 : Nat) then indent :: outer else outer) = [0, -1])
    (hnext : StartsWord next) (hend : .streamEnd ∈ r.finish) :
    ∃ r' : Reader, r'.finish = r.finish ∧ r'.At next 0 true 0 [-1]
      (.blockEnd :: (((first :: rest).flatMap fun f => (f.valued 0).allTokens).reverse ++
        (if indent < (2 : Nat) then .blockMappingStart :: tokens else tokens))) := by
  induction rest generalizing first r indent outer tokens with
  | nil =>
    refine h.finish_field (n := 0) (by omega) hnext hend ?_
    rw [hopen, reverse_allTokens_valued first 0, List.flatMap_singleton]
    rfl
  | cons second rest ih =>
    rw [List.flatMap_cons, DocumentField.written_line, List.append_assoc, List.append_assoc,
      List.append_assoc, List.singleton_append] at h
    obtain ⟨r', hfinish, hat⟩ := h.finish_field (n := 2) (by omega) (startsWord_body second _) hend
      (closing_of_le (by omega) _ _)
    rw [← hfinish] at hend ⊢
    obtain ⟨r'', hfinish', hat'⟩ := ih hat hopen hend
    refine ⟨r'', hfinish', ?_⟩
    rw [if_neg (by omega), reverse_allTokens_valued first 0] at hat'
    rw [List.flatMap_cons, List.reverse_append, List.append_assoc]
    exact hat'

/-! ### Parts -/

lemma isKey_part (p : DocumentPart) : IsKey p.key := by
  cases p with
  | field f => exact f.isKey
  | group key first rest isKey distinct => exact isKey

lemma startsWord_part (p : DocumentPart) (s : List Char) :
    StartsWord (p.lines.flatMap DocumentLine.written ++ s) := by
  obtain ⟨rest, hlines⟩ : ∃ rest, p.lines.flatMap DocumentLine.written = p.key.toList ++ rest := by
    cases p with
    | field f =>
      refine ⟨':' :: ' ' :: (f.value.text.toList ++ ['\n']), ?_⟩
      simp [DocumentPart.lines, DocumentPart.key, DocumentField.written_line, DocumentField.body]
    | group key first rest isKey distinct =>
      exact ⟨_, by rw [DocumentPart.lines, List.flatMap_cons, DocumentLine.written, List.append_assoc]; rfl⟩
  rw [hlines, List.append_assoc]
  exact startsWord_append (isKey_part p).1 _

lemma allTokens_group {key : String} {first : DocumentField} {rest : List DocumentField}
    {isKey : IsKey key} {distinct : ((first :: rest).map DocumentField.key).Nodup} :
    (DocumentPart.group key first rest isKey distinct).valued.allTokens =
      .key :: .scalar .plain key.toList :: .value :: .blockMappingStart ::
        (((first :: rest).flatMap fun f => (f.valued 0).allTokens) ++ [.blockEnd]) := by
  change _ :: _ :: _ :: _ :: (List.flatMap _ (List.map _ (List.map _ _)) ++ _) = _
  rw [List.map_map, List.flatMap_map]
  rfl

lemma At.finish_part {p : DocumentPart} {next : List Char}
    (h : r.At (p.lines.flatMap DocumentLine.written ++ next) 0 true indent outer tokens)
    (hopen : (if indent < (0 : Nat) then indent :: outer else outer) = [-1])
    (hnext : StartsWord next) (hend : .streamEnd ∈ r.finish) :
    ∃ r' : Reader, r'.finish = r.finish ∧ r'.At next 0 true 0 [-1]
      (p.valued.allTokens.reverse ++
        (if indent < (0 : Nat) then .blockMappingStart :: tokens else tokens)) := by
  cases p with
  | field f =>
    have htext : (DocumentPart.field f).lines.flatMap DocumentLine.written ++ next =
        f.body ++ '\n' :: (List.replicate 0 ' ' ++ next) := by
      simp [DocumentPart.lines, DocumentField.written_line]
    rw [htext] at h
    refine h.finish_field (by omega) hnext hend ?_
    rw [hopen, reverse_allTokens_valued f 1]
    rfl
  | group key first rest isKey distinct =>
    let inner := first.body ++ '\n' :: (rest.flatMap (fun f => (f.line 1).written) ++ next)
    let begun := Token.value :: .scalar .plain key.toList :: .key ::
      (if indent < (0 : Nat) then .blockMappingStart :: tokens else tokens)
    have hheading : (DocumentLine.heading key).written = key.toList ++ [':', '\n'] := rfl
    have htext : (DocumentPart.group key first rest isKey distinct).lines.flatMap
        DocumentLine.written ++ next =
          key.toList ++ ':' :: '\n' :: (List.replicate 2 ' ' ++ inner) := by
      simp [DocumentPart.lines, hheading, DocumentField.written_line, List.flatMap_map, inner]
    have hnone : .streamEnd ∉ begun := by
      have htokens := h.streamEnd_notMem_tokens
      simp only [begun]
      split <;> simpa using htokens
    rw [htext] at h
    obtain ⟨p, -, hfinish⟩ := h.finish_key isKey.1 isKey.2.1 rfl
    rw [hopen] at hfinish
    have hat : (idle ('\n' :: (List.replicate 2 ' ' ++ inner)) p false (0 : Nat) [-1] begun).At
        inner 2 true 0 [-1] begun :=
      at_next_line (startsWord_body first _) 2 p (closing_of_le (by decide) _ _) hnone
    rw [hfinish] at hend ⊢
    obtain ⟨r', hfinish', hat'⟩ := hat.finish_fields rfl hnext hend
    refine ⟨r', hfinish', ?_⟩
    rw [allTokens_group]
    simpa [begun] using hat'

lemma At.finish_parts {p : DocumentPart} {ps : List DocumentPart} {next : List Char}
    (h : r.At (((p :: ps).flatMap DocumentPart.lines).flatMap DocumentLine.written ++ next) 0 true
      indent outer tokens)
    (hopen : (if indent < (0 : Nat) then indent :: outer else outer) = [-1])
    (hnext : StartsWord next) (hend : .streamEnd ∈ r.finish) :
    ∃ r' : Reader, r'.finish = r.finish ∧ r'.At next 0 true 0 [-1]
      (((p :: ps).flatMap fun p => p.valued.allTokens).reverse ++
        (if indent < (0 : Nat) then .blockMappingStart :: tokens else tokens)) := by
  induction ps generalizing p r indent outer tokens with
  | nil =>
    rw [List.flatMap_singleton] at h ⊢
    exact h.finish_part hopen hnext hend
  | cons second ps ih =>
    rw [List.flatMap_cons, List.flatMap_append, List.append_assoc] at h
    have hsecond : StartsWord (((second :: ps).flatMap DocumentPart.lines).flatMap
        DocumentLine.written ++ next) := by
      rw [List.flatMap_cons, List.flatMap_append, List.append_assoc]
      exact startsWord_part second _
    obtain ⟨r', hfinish, hat⟩ := h.finish_part hopen hsecond hend
    rw [← hfinish] at hend ⊢
    obtain ⟨r'', hfinish', hat'⟩ := ih hat rfl hend
    refine ⟨r'', hfinish', ?_⟩
    rw [if_neg (by decide)] at hat'
    rw [List.flatMap_cons, List.reverse_append, List.append_assoc]
    exact hat'

/-! ### Properties and blocks -/

lemma At.finish_properties {m : TextMap String} {key : String} (isKey : IsKey key) {next : List Char}
    (h : r.At (key.toList ++ ':' :: ' ' :: ((Json.ofTextMap m).compact.toList ++ '\n' :: next)) 0 true
      0 [-1] tokens) (hnext : StartsWord next) (hend : .streamEnd ∈ r.finish) :
    ((∀ e ∈ m.toList, KeptByQuotes e.1.toList) ∧ ∃ r' : Reader, r'.finish = r.finish ∧
      r'.At next 0 true 0 [-1]
        (.flowMappingEnd :: ((memberTokens true m.toList).reverse ++
          .flowMappingStart :: .value :: .scalar .plain key.toList :: .key :: tokens))) ∨
    ∃ front key', tokens.reverse ++ .key :: .scalar .plain key.toList :: .value ::
      .flowMappingStart :: brokenTokens true key' front <+: r.finish := by
  have hnone := h.streamEnd_notMem_tokens
  rw [toList_ofTextMap, List.cons_append] at h
  obtain ⟨r₁, column₁, hkey, hat⟩ := h.finish_key_value isKey.1 isKey.2.1 (by decide)
  obtain ⟨p, hopen⟩ := hat.finish_open
  rw [← hkey, hopen] at hend ⊢
  rcases finish_members m.toList true (by simpa using hnone) hend with
    ⟨hkeys, p', hclose⟩ | ⟨front, key', hbroken⟩
  · left
    refine ⟨hkeys, _, hclose.symm, at_next_line hnext 0 p' ?_ ?_⟩
    · exact closing_of_le (by decide) _ _
    · simpa [streamEnd_notMem_memberTokens] using hnone
  · right
    refine ⟨front, key', ?_⟩
    simpa using hbroken

lemma At.finish_block {key body : String} (isKey : IsKey key) {next : List Char}
    (h : r.At ((literalBlock key body).toList ++ next) 0 true 0 [-1] tokens)
    (hnext : StartsWord next) (hend : .streamEnd ∈ r.finish) :
    (KeptByBlock body.toList ∧ ∃ r' : Reader, r'.finish = r.finish ∧ r'.At next 0 true 0 [-1]
      ((blockEntry isKey body.toList).allTokens.reverse ++ tokens)) ∨
    ¬ KeptByBlock body.toList ∧ ∃ text, text ≠ body.toList ∧
      tokens.reverse ++ (blockEntry isKey text).allTokens <+: r.finish := by
  have hnone := h.streamEnd_notMem_tokens
  have htail : EndsBlock next := by
    intro c hc
    have hword := isKeyChar_of_isWordChar (hnext c hc)
    exact ⟨isBlank_of_isKeyChar hword, isBreak_of_isKeyChar hword⟩
  rw [toList_literalBlock] at h
  simp only [List.append_assoc, List.cons_append] at h
  obtain ⟨r₁, column₁, hkey, hat⟩ := h.finish_key_value isKey.1 isKey.2.1 (by decide)
  rw [← hkey] at hend ⊢
  rcases hat.finish_literal htail hend with ⟨hkept, p, hp, hblock⟩ | ⟨hkept, text, htext, hcut⟩
  · left
    refine ⟨hkept, _, hblock.symm, ?_⟩
    have hword : (idle next p true 0 [-1]
        ((blockEntry isKey body.toList).allTokens.reverse ++ tokens)).At next p.column true 0 [-1]
          ((blockEntry isKey body.toList).allTokens.reverse ++ tokens) := by
      refine at_word hnext p (closing_of_le (by omega) _ _) ?_
      simpa [blockEntry, SpelledEntry.allTokens] using hnone
    rw [hp] at hword
    exact hword
  · right
    refine ⟨hkept, text, htext, ?_⟩
    simpa [blockEntry, SpelledEntry.allTokens] using hcut

lemma startsWord_blocks {bs : List (String × String)} (hkeys : ∀ b ∈ bs, IsKey b.1) :
    StartsWord (bs.flatMap fun b => (literalBlock b.1 b.2).toList) := by
  cases bs with
  | nil => simp [StartsWord]
  | cons b bs =>
    rw [List.flatMap_cons, toList_literalBlock, List.append_assoc]
    exact startsWord_append (hkeys b List.mem_cons_self).1 _

/-- What the blocks at the end of a text are read as: either each is read as it should be, or the first
that is not has another text in its place. -/
inductive BlocksOutcome (bs : List (String × String)) (tokens finish : List Token)
    (l : List (Value.ValuedEntry 1)) : Prop
  | kept (hkept : ∀ b ∈ bs, KeptByBlock b.2.toList)
    (hpairs : l.map Value.ValuedEntry.pair = bs.map fun b => (b.1, .string b.2))
    (hfinish : finish =
      tokens.reverse ++ (l.flatMap (fun e => e.allTokens) ++ [.blockEnd, .streamEnd]))
  | broken (hbroken : ∃ b ∈ bs, ¬ KeptByBlock b.2.toList)
    (hnames : (l.map fun e => e.pair.1) <+: bs.map Prod.fst)
    (hpairs : ¬ l.map Value.ValuedEntry.pair <+: bs.map fun b => (b.1, .string b.2))
    (hcut : tokens.reverse ++ l.flatMap (fun e => e.allTokens) <+: finish)

lemma pair_blockEntry {key : String} (isKey : IsKey key) (text : List Char) :
    (blockEntry isKey text).pair = (key, .string (String.ofList text)) := by
  change (String.ofList key.toList, Value.string (String.ofList text)) = _
  rw [String.ofList_toList]

lemma BlocksOutcome.cons {b : String × String} (isKey : IsKey b.1) {bs : List (String × String)}
    {finish : List Token} {l : List (Value.ValuedEntry 1)} (hkept : KeptByBlock b.2.toList)
    (h : BlocksOutcome bs ((blockEntry isKey b.2.toList).allTokens.reverse ++ tokens) finish l) :
    BlocksOutcome (b :: bs) tokens finish (blockEntry isKey b.2.toList :: l) := by
  have hpair : (blockEntry isKey b.2.toList).pair = (b.1, .string b.2) := by
    rw [pair_blockEntry, String.ofList_toList]
  cases h with
  | kept hall hpairs hfinish =>
    refine .kept (List.forall_mem_cons.mpr ⟨hkept, hall⟩) ?_ ?_
    · rw [List.map_cons, List.map_cons, hpair, hpairs]
    · rw [hfinish]
      simp
  | broken hbroken hnames hpairs hcut =>
    obtain ⟨b', hb', hnot⟩ := hbroken
    refine .broken ⟨b', List.mem_cons_of_mem _ hb', hnot⟩ ?_ ?_ ?_
    · rw [List.map_cons, List.map_cons, hpair]
      exact List.cons_prefix_cons.mpr ⟨rfl, hnames⟩
    · rw [List.map_cons, List.map_cons, hpair, List.cons_prefix_cons]
      exact fun hmore => hpairs hmore.2
    · simpa using hcut

lemma BlocksOutcome.of_broken {b : String × String} (isKey : IsKey b.1)
    {bs : List (String × String)} {finish : List Token} {text : List Char}
    (hkept : ¬ KeptByBlock b.2.toList) (htext : text ≠ b.2.toList)
    (hcut : tokens.reverse ++ (blockEntry isKey text).allTokens <+: finish) :
    BlocksOutcome (b :: bs) tokens finish [blockEntry isKey text] := by
  refine .broken ⟨b, List.mem_cons_self, hkept⟩ ?_ ?_ (by simpa using hcut)
  · rw [List.map_singleton, pair_blockEntry, List.map_cons]
    exact List.cons_prefix_cons.mpr ⟨rfl, List.nil_prefix⟩
  · rw [List.map_singleton, pair_blockEntry, List.map_cons, List.cons_prefix_cons, Prod.mk.injEq,
      Value.string.injEq, ← String.toList_inj, ← String.toList_inj, String.toList_ofList]
    exact fun hsame => htext hsame.1.2

lemma At.finish_blocks {bs : List (String × String)} (hkeys : ∀ b ∈ bs, IsKey b.1)
    (h : r.At (bs.flatMap fun b => (literalBlock b.1 b.2).toList) 0 true 0 [-1] tokens)
    (hend : .streamEnd ∈ r.finish) : ∃ l, BlocksOutcome bs tokens r.finish l := by
  induction bs generalizing r tokens with
  | nil =>
    refine ⟨[], .kept (by simp) rfl ?_⟩
    rw [h.finish_end]
    change (Token.blockEnd :: tokens).reverse ++ [.streamEnd] = _
    simp
  | cons b bs ih =>
    have hrest : ∀ b' ∈ bs, IsKey b'.1 := fun b' hb' => hkeys b' (List.mem_cons_of_mem _ hb')
    rw [List.flatMap_cons] at h
    rcases h.finish_block (hkeys b List.mem_cons_self) (startsWord_blocks hrest) hend with
      ⟨hkept, r', hfinish, hat⟩ | ⟨hkept, text, htext, hcut⟩
    · rw [← hfinish] at hend ⊢
      obtain ⟨l, hl⟩ := ih hrest hat hend
      exact ⟨_, hl.cons _ hkept⟩
    · exact ⟨_, .of_broken _ hkept htext hcut⟩

end

end Yaml.Reader

end WorkflowOperator
