import WorkflowOperator.Proofs.Job.Scanning

/-!
# What a job document is read as

A document that is handed over is read as a mapping that starts with the parts of the stage and its
properties. Its blocks follow up to the first one that is not read as it should be. So the document
stands for the content of the stage exactly if its quotes and its blocks keep all of its texts.
-/

namespace WorkflowOperator

open Yaml Yaml.Value Yaml.Reader

namespace ResolvedJob

lemma isKey_properties : IsKey "properties" := by decide

lemma isKey_appConfig : IsKey "app-config" := by decide

lemma isKey_script : IsKey "script" := by decide

lemma isKey_documentBlocks (j : ResolvedJob) (script : String) :
    ∀ b ∈ j.documentBlocks script, IsKey b.1 := by
  intro b hb
  have hmem := List.mem_of_mem_filter hb
  rw [List.mem_cons, List.mem_singleton] at hmem
  rcases hmem with rfl | rfl
  · exact isKey_appConfig
  · exact isKey_script

def documentKeys (j : ResolvedJob) (script : String) : List String :=
  j.parts.map DocumentPart.key ++ "properties" :: (j.documentBlocks script).map Prod.fst

lemma nodup_documentKeys (j : ResolvedJob) (script : String) : (j.documentKeys script).Nodup := by
  have hblocks : ((j.documentBlocks script).map Prod.fst).Sublist ["app-config", "script"] :=
    List.Sublist.map Prod.fst List.filter_sublist
  have hall : (["name", "image", "workdir", "interactive", "config", "registry"] ++
      "properties" :: ["app-config", "script"]).Nodup := by decide
  exact ((hblocks.cons_cons "properties").append_left _).nodup hall

/-! ### Tokens -/

lemma tokens_eq_finish {s : List Char} (h : .streamEnd ∈ Yaml.tokens s) :
    Yaml.tokens s = (Reader.start s).finish := by
  unfold Yaml.tokens at h ⊢
  split at h
  · rename_i hreadable
    rw [if_pos hreadable]
  · cases h

def partEntries (j : ResolvedJob) : List (ValuedEntry 1) := j.parts.map DocumentPart.valued

lemma finish_parts (j : ResolvedJob) (script : String)
    (hend : .streamEnd ∈ Yaml.tokens (j.writtenDocument script).toList) :
    ∃ r : Reader, r.finish = Yaml.tokens (j.writtenDocument script).toList ∧
      r.At ("properties".toList ++ ':' :: ' ' ::
        ((Json.ofTextMap j.step.properties).compact.toList ++ '\n' ::
          (j.documentBlocks script).flatMap fun b => (literalBlock b.1 b.2).toList)) 0 true 0 [-1]
        ((j.partEntries.flatMap fun e => e.allTokens).reverse ++ [.blockMappingStart]) := by
  have htokens := tokens_eq_finish hend
  rw [htokens] at hend ⊢
  have htext : (j.writtenDocument script).toList =
      (j.parts.flatMap DocumentPart.lines).flatMap DocumentLine.written ++
        ("properties".toList ++ ':' :: ' ' ::
          ((Json.ofTextMap j.step.properties).compact.toList ++ '\n' ::
            (j.documentBlocks script).flatMap fun b => (literalBlock b.1 b.2).toList)) := by
    simp [writtenDocument, documentLines_eq, DocumentLine.written]
  have hnext := startsWord_append isKey_properties.1 (':' :: ' ' ::
    ((Json.ofTextMap j.step.properties).compact.toList ++ '\n' ::
      (j.documentBlocks script).flatMap fun b => (literalBlock b.1 b.2).toList))
  have hfirst : StartsWord (j.writtenDocument script).toList := by
    rw [htext, parts, List.flatMap_cons, List.flatMap_append, List.append_assoc]
    exact startsWord_part _ _
  have hstart : (Reader.start (j.writtenDocument script).toList).At
      (j.writtenDocument script).toList 0 true (-1) [] [] :=
    at_word hfirst .start (closing_of_le (by decide) _ _) List.not_mem_nil
  rw [htext] at hstart hend ⊢
  obtain ⟨r, hfinish, hat⟩ := hstart.finish_parts rfl hnext hend
  refine ⟨r, hfinish, ?_⟩
  rw [partEntries, List.flatMap_map]
  exact hat

def frontEntries (j : ResolvedJob)
    (hkeys : ∀ e ∈ j.step.properties.toList, KeptByQuotes e.1.toList) : List (ValuedEntry 1) :=
  j.partEntries ++ [objectEntry isKey_properties hkeys]

/-- A document that is a value keeps the keys of its properties; its blocks follow them. -/
lemma exists_blocksOutcome (j : ResolvedJob) (script : String) {v : Value}
    (hv : ofText (j.writtenDocument script) = .ok v) :
    ∃ (hkeys : ∀ e ∈ j.step.properties.toList, KeptByQuotes e.1.toList) (l : List (ValuedEntry 1)),
      BlocksOutcome (j.documentBlocks script)
        (((j.frontEntries hkeys).flatMap fun e => e.allTokens).reverse ++ [.blockMappingStart])
        (Yaml.tokens (j.writtenDocument script).toList) l := by
  obtain ⟨hend, -⟩ := of_ofText hv
  obtain ⟨r, hfinish, hat⟩ := j.finish_parts script hend
  have hnext : StartsWord ((j.documentBlocks script).flatMap fun b =>
      (literalBlock b.1 b.2).toList) := startsWord_blocks (j.isKey_documentBlocks script)
  rw [← hfinish] at hend
  rcases hat.finish_properties isKey_properties hnext hend with
    ⟨hkeys, r', hfinish', hat'⟩ | ⟨front, key, hcut⟩
  · have hblocks : r'.At ((j.documentBlocks script).flatMap fun b =>
        (literalBlock b.1 b.2).toList) 0 true 0 [-1]
        (((j.frontEntries hkeys).flatMap fun e => e.allTokens).reverse ++ [.blockMappingStart]) := by
      simpa [frontEntries, objectEntry, SpelledEntry.allTokens] using hat'
    rw [← hfinish'] at hend
    obtain ⟨l, hl⟩ := hblocks.finish_blocks (j.isKey_documentBlocks script) hend
    rw [hfinish', hfinish] at hl
    exact ⟨hkeys, l, hl⟩
  · rw [hfinish] at hcut
    have hbroken : ofText (j.writtenDocument script) ≠ .ok v :=
      ofText_ne_of_broken (by simpa using hcut) v
    exact absurd hv hbroken

/-! ### Values -/

lemma pair_frontEntries_eq_iff (j : ResolvedJob)
    (hkeys : ∀ e ∈ j.step.properties.toList, KeptByQuotes e.1.toList) :
    (j.frontEntries hkeys).map ValuedEntry.pair = j.frontFields ↔
      (∀ p ∈ j.parts, p.Kept) ∧ ∀ e ∈ j.step.properties.toList, KeptByQuotes e.2.toList := by
  have hparts : j.partEntries.map ValuedEntry.pair = j.parts.map (fun p => (p.key, p.value)) ↔
      ∀ p ∈ j.parts, p.Kept := by
    rw [partEntries, List.map_map, List.map_inj_left]
    exact forall_congr' fun p => forall_congr' fun _ => p.pair_valued_eq_iff
  have hobject := pair_objectEntry_eq_iff isKey_properties hkeys
  rw [← hparts, ← hobject, frontEntries, frontFields, List.map_append, List.map_singleton]
  constructor
  · intro h
    have hsplit := List.append_inj h (by simp [partEntries])
    exact ⟨hsplit.1, List.singleton_inj.mp hsplit.2⟩
  · rintro ⟨h, h'⟩
    rw [h, h']

lemma keys_frontEntries (j : ResolvedJob)
    (hkeys : ∀ e ∈ j.step.properties.toList, KeptByQuotes e.1.toList) :
    (j.frontEntries hkeys).map (fun e => e.pair.1) = j.parts.map DocumentPart.key ++ ["properties"] := by
  have hpart : ∀ p : DocumentPart, p.valued.pair.1 = p.key := by
    intro p
    change String.ofList p.valued.key = p.key
    rw [p.key_valued, String.ofList_toList]
  have hparts : (fun e : ValuedEntry 1 => e.pair.1) ∘ DocumentPart.valued = DocumentPart.key :=
    funext hpart
  rw [frontEntries, partEntries, List.map_append, List.map_map, hparts]
  rfl

lemma nodup_entries (j : ResolvedJob) (script : String)
    (hkeys : ∀ e ∈ j.step.properties.toList, KeptByQuotes e.1.toList) {l : List (ValuedEntry 1)}
    (hl : (l.map fun e => e.pair.1) <+: (j.documentBlocks script).map Prod.fst) :
    ((j.frontEntries hkeys ++ l).map fun e => e.pair.1).Nodup := by
  rw [List.map_append, keys_frontEntries, List.append_assoc]
  exact (((hl.sublist).cons_cons "properties").append_left _).nodup (j.nodup_documentKeys script)

/-- A block that is not read as it should be shows in the value. -/
lemma ofText_ne_of_cut (j : ResolvedJob) (script : String)
    (hkeys : ∀ e ∈ j.step.properties.toList, KeptByQuotes e.1.toList) {l : List (ValuedEntry 1)}
    (hnames : (l.map fun e => e.pair.1) <+: (j.documentBlocks script).map Prod.fst)
    (hpairs : ¬ l.map ValuedEntry.pair <+:
      (j.documentBlocks script).map fun b => (b.1, .string b.2))
    (hcut : .blockMappingStart :: (j.frontEntries hkeys ++ l).flatMap (fun e => e.allTokens) <+:
      Yaml.tokens (j.writtenDocument script).toList) :
    ofText (j.writtenDocument script) ≠
      .ok (.record (j.frontFields ++ (j.documentBlocks script).map fun b => (b.1, .string b.2))) := by
  intro hcontent
  obtain ⟨values, hprefix, hmapping⟩ :=
    entries_of_ofText (j.nodup_entries script hkeys hnames) hcut hcontent
  rw [record, Value.mapping.injEq] at hmapping
  rw [← hmapping, List.prefix_map_iff_of_injective pair_injective, List.map_append] at hprefix
  obtain ⟨more, hmore⟩ := hprefix
  rw [List.append_assoc] at hmore
  have hsplit := List.append_inj hmore (by simp [frontEntries, frontFields, partEntries])
  exact hpairs ⟨more, hsplit.2⟩

/-- A document that is handed over stands for the content of its stage exactly if it keeps all of the
stage's texts. -/
theorem document_decodes_iff {j : ResolvedJob} {script text : String}
    (h : j.document script = .ok text) :
    Value.ofText text = .ok (j.content script) ↔ j.IsKept script := by
  obtain ⟨rfl, v, hv⟩ := document_eq_ok_iff.mp h
  obtain ⟨hkeys, l, hl⟩ := j.exists_blocksOutcome script hv
  rw [isKept_iff, content_eq]
  cases hl with
  | kept hkept hpairs htokens =>
    -- every block is read as it should be, so the quotes decide
    have hnames : l.map (fun e => e.pair.1) = (j.documentBlocks script).map Prod.fst := by
      have hfirst := congrArg (List.map Prod.fst) hpairs
      rw [List.map_map, List.map_map] at hfirst
      exact hfirst
    have hprefix : l.map (fun e => e.pair.1) <+: (j.documentBlocks script).map Prod.fst := by
      rw [hnames]
    have hread := ofText_of_entries (j.nodup_entries script hkeys hprefix) (by simpa using htokens)
    rw [hread, Except.ok.injEq, record_inj, List.map_append, hpairs, List.append_left_inj,
      pair_frontEntries_eq_iff, ← and_assoc]
    exact (and_iff_left hkept).symm
  | broken hbroken hnames hpairs hcut =>
    obtain ⟨b, hb, hbroken⟩ := hbroken
    have hdiffers := j.ofText_ne_of_cut script hkeys hnames hpairs (by simpa using hcut)
    constructor
    · intro hcontent
      exact absurd hcontent hdiffers
    · rintro ⟨-, -, hkept⟩
      exact absurd (hkept b hb) hbroken

lemma document_of_tokens {j : ResolvedJob} {script : String} {l : List (ValuedEntry 1)}
    (hkeys : (l.map fun e => e.pair.1).Nodup)
    (htokens : Yaml.tokens (j.documentLines.flatMap DocumentLine.written ++
      (j.documentBlocks script).flatMap fun b => (literalBlock b.1 b.2).toList) =
        .blockMappingStart :: (l.flatMap (fun e => e.allTokens) ++ [.blockEnd, .streamEnd])) :
    j.document script = .ok (j.writtenDocument script) ∧
      Value.ofText (j.writtenDocument script) = .ok (.record (l.map ValuedEntry.pair)) := by
  have hread : Value.ofText (j.writtenDocument script) = .ok (.record (l.map ValuedEntry.pair)) := by
    refine ofText_of_entries hkeys ?_
    rw [writtenDocument, String.toList_ofList]
    exact htokens
  exact ⟨document_eq_ok_iff.mpr ⟨rfl, _, hread⟩, hread⟩

/-- A stage with a configuration of several lines. -/
def steppedJob : ResolvedJob where
  step :=
    { name := "train"
      config := ⟨2, 3, some 4, 0, false, some "01:00:00", "IfNotPresent", "nvidia.com/gpu", none⟩
      registry := ⟨"", "model", "", none⟩
      arch := "amd64"
      appConfig := "steps: 10\n# key: [not one]\n\n"
      properties := SortedMap.singleton "minicluster" "true"
      image := "repo/img:tag # not a comment"
      interactive := false
      workdir := "/tmp/out"
      script := "" }
  registry := ⟨"registry-0.wf1.ns1.svc.cluster.local:5000", true, "model", ""⟩
  jobid := "wf1"

lemma keys_steppedJob : ∀ e ∈ steppedJob.step.properties.toList, KeptByQuotes e.1.toList := by
  decide

def steppedEntries : List (ValuedEntry 1) :=
  steppedJob.frontEntries keys_steppedJob ++
    [blockEntry isKey_appConfig steppedJob.step.appConfig.toList,
      blockEntry isKey_script "cd out\n\n  echo go\n".toList]

lemma document_steppedJob : steppedJob.document "cd out\n\n  echo go\n" =
    .ok (steppedJob.writtenDocument "cd out\n\n  echo go\n") := by
  have hkeys : (steppedEntries.map fun e => e.pair.1).Nodup :=
    steppedJob.nodup_entries "cd out\n\n  echo go\n" keys_steppedJob (List.prefix_refl _)
  exact (document_of_tokens hkeys (by decide +kernel)).1

theorem steppedJob_decodes : ∃ text, steppedJob.document "cd out\n\n  echo go\n" = .ok text ∧
    Value.ofText text = .ok (steppedJob.content "cd out\n\n  echo go\n") := by
  have hkept : steppedJob.IsKept "cd out\n\n  echo go\n" := by decide +kernel
  exact ⟨_, document_steppedJob, (document_decodes_iff document_steppedJob).mpr hkept⟩

/-- A stage with a carriage return in its configuration. -/
def returnJob : ResolvedJob where
  step :=
    { name := "train"
      config := ⟨1, 3, none, 0, false, none, "IfNotPresent", "nvidia.com/gpu", none⟩
      registry := ⟨"", "", "", none⟩
      arch := "amd64"
      appConfig := "steps: 10\rextra: 1"
      properties := ∅
      image := "repo/img"
      interactive := false
      workdir := "/tmp/out"
      script := "" }
  registry := ⟨"registry-0.wf1.ns1.svc.cluster.local:5000", true, "", ""⟩
  jobid := "wf1"

lemma keys_returnJob : ∀ e ∈ returnJob.step.properties.toList, KeptByQuotes e.1.toList := by
  decide

def returnEntries : List (ValuedEntry 1) :=
  returnJob.frontEntries keys_returnJob ++ [blockEntry isKey_appConfig "steps: 10".toList,
    (DocumentField.mk "extra" "" (.count 1) (by decide)).valued 1]

/-- The configuration ends at the carriage return, and what follows it is a further field. -/
theorem carriage_return_adds_field : ∃ text, returnJob.document "" = .ok text ∧
    Value.ofText text = .ok (.record (returnJob.frontFields ++
      [("app-config", .string "steps: 10"), ("extra", .int 1)])) ∧
    Value.ofText text ≠ .ok (returnJob.content "") := by
  have hkeys : (returnEntries.map fun e => e.pair.1).Nodup := by
    rw [returnEntries, List.map_append, keys_frontEntries]
    decide +kernel
  have hfront : (returnJob.frontEntries keys_returnJob).map ValuedEntry.pair =
      returnJob.frontFields := by
    rw [pair_frontEntries_eq_iff]
    exact ⟨by decide +kernel, by decide⟩
  have hpairs : returnEntries.map ValuedEntry.pair = returnJob.frontFields ++
      [("app-config", .string "steps: 10"), ("extra", .int 1)] := by
    rw [returnEntries, List.map_append, hfront]
    simp [ValuedEntry.pair, blockEntry, DocumentField.valued, LineValue.found]
  have hdocument : returnJob.document "" = .ok (returnJob.writtenDocument "") ∧
      Value.ofText (returnJob.writtenDocument "") =
        .ok (.record (returnEntries.map ValuedEntry.pair)) :=
    document_of_tokens hkeys (by decide +kernel)
  rw [hpairs] at hdocument
  refine ⟨_, hdocument.1, hdocument.2, ?_⟩
  rw [hdocument.2, content_eq, Ne, Except.ok.injEq, record_inj, List.append_right_inj]
  intro h
  have hlength := congrArg List.length h
  rw [List.length_map] at hlength
  exact absurd hlength (by decide)

end ResolvedJob

end WorkflowOperator
