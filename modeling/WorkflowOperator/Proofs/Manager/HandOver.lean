import WorkflowOperator.Proofs.Manager.Files
import WorkflowOperator.Proofs.Yaml.ReadingBack
import WorkflowOperator.Proofs.Yaml.Scanning
import WorkflowOperator.Workflow.Reading

/-!
# What the manager is handed

The workflow file, read by the rules for workflow documents, gives the completion policy of the workflow
as it is: what was left out is left out again, a condition that is a number stays the number and one in
words stays the words. The stages are listed under the names of their documents.
-/

namespace WorkflowOperator

open Yaml Yaml.Decoder

/-! ### Completion policies -/

section Entries

variable {α σ : Type} {fields : List (Decoder.Field σ)} {s u : σ} {l : List (String × Value)}

lemma takes_optionalEntry {name : String} {d : Decoder α} {put : σ → Option α → σ} {write : α → Value}
    {a? : Option α} (hd : ∀ a ∈ a?, (optional d).Reads (write a) (some a)) (hput : put s none = s)
    (hrest : Takes fields (put s a?) l u) :
    Takes (Decoder.Field.of name (optional d) put :: fields) s
      (optionalEntry name write a? ++ l) u := by
  cases a? with
  | none =>
    rw [hput] at hrest
    exact hrest.skip
  | some a => exact .entry (hd a rfl).field hrest

lemma takes_unless {f : Decoder.Field σ} {v : Value} {t : σ} {c : Prop} [Decidable c] (hsame : c → t = s)
    (hread : ∀ anchors place n, v.isWrittenAs n = true → f.read anchors place n s = pure t)
    (hrest : Takes fields t l u) :
    Takes (f :: fields) s ((if c then [] else [(f.name, v)]) ++ l) u := by
  by_cases hc : c
  · rw [if_pos hc]
    rw [hsame hc] at hrest
    exact hrest.skip
  · rw [if_neg hc]
    exact .entry hread hrest

end Entries

lemma Condition.decoder_reads (c : Condition) : decoder.Reads c.toValue c := by
  intro anchors place n hn
  cases c with
  | equals x =>
    obtain ⟨style, text, rfl, hs⟩ := Value.exists_scalar (v := .float x) trivial hn
    simp only [decoder, Value.follow_eq_pure hn, pure_bind, Value.isSpelledBy_float.mp hs]
    rfl
  | expression s =>
    obtain ⟨style, text, rfl, hs⟩ := Value.exists_scalar (v := .string s) trivial hn
    obtain ⟨hmeaning, rfl⟩ := Value.isSpelledBy_string.mp hs
    simp only [decoder, Value.follow_eq_pure hn, pure_bind, hmeaning]
    rfl

lemma Condition.optional_reads (c : Condition) :
    (optional Condition.decoder).Reads c.toValue (some c) := by
  cases c with
  | equals x => exact (decoder_reads (.equals x)).optional trivial nofun
  | expression s => exact (decoder_reads (.expression s)).optional trivial nofun

lemma optional_word32_reads (n : UInt32) : (optional word32).Reads (countValue n) (some n) :=
  (word32_reads n).optional trivial nofun

lemma optional_int32_reads (n : Int32) : (optional int32).Reads (.int n.toInt) (some n) :=
  (int32_reads n).optional trivial nofun

lemma WorkflowEvent.decoder_reads (e : WorkflowEvent) : decoder.Reads e.toValue e := by
  simp only [toValue, List.append_assoc, List.cons_append, List.nil_append]
  rw [← List.append_nil (optionalEntry "maxSize" countValue e.maxSize)]
  refine Takes.record (t := e) ?_ ?_ ?_
  · refine .entry (text_reads e.metric).field ?_
    refine takes_optionalEntry (fun c _ => c.optional_reads) rfl ?_
    refine .entry (text_reads e.action).field ?_
    refine takes_optionalEntry (fun n _ => optional_int32_reads n) rfl ?_
    refine takes_optionalEntry (fun n _ => optional_word32_reads n) rfl ?_
    refine takes_optionalEntry (fun n _ => optional_word32_reads n) rfl ?_
    refine takes_optionalEntry (fun n _ => optional_word32_reads n) rfl ?_
    refine takes_optionalEntry (fun n _ => optional_word32_reads n) rfl ?_
    exact .nil _
  · unfold AreApart
    decide
  · simp

lemma CompletionPolicy.decoder_reads (p : CompletionPolicy) : decoder.Reads p.toValue p := by
  have hevents : (list WorkflowEvent.decoder).Reads
      (.sequence (p.events.map WorkflowEvent.toValue)) p.events :=
    list_reads fun e _ => e.decoder_reads
  rw [toValue, List.append_assoc, List.singleton_append,
    ← List.append_nil (if p.events.isEmpty then [] else _)]
  refine Takes.record (t := p) ?_ ?_ ?_
  · refine .entry (word32_reads p.threshold).fieldAlsoNamed ?_
    refine takes_unless (fun hempty => ?_) (text_reads p.jobNamePrefix).fieldAlsoNamed ?_
    · rw [String.isEmpty_iff] at hempty
      rw [hempty]
      rfl
    refine takes_unless (fun hempty => ?_) hevents.field ?_
    · rw [List.isEmpty_iff] at hempty
      rw [hempty]
      rfl
    exact .nil _
  · unfold AreApart
    decide
  · simp

/-! ### The workflow file -/

/-- What the manager finds in the workflow file. -/
structure HandOver where
  name : String
  inNamespace : String
  completion : CompletionPolicy
  maxSize : UInt32
  maxNodes : UInt32
  coresPerNode : UInt32
  /-- The names of the files of the stages. -/
  jobs : List String
deriving DecidableEq, Repr

namespace HandOver

def unset : HandOver := ⟨"", "", .unset, 0, 0, 0, []⟩

/-- The sizes in a hand-over that has none. -/
def sizesDecoder : Decoder (UInt32 × UInt32 × UInt32) :=
  record [
    .of "max_size" word32 fun s v => (v, s.2),
    .of "max_nodes" word32 fun s v => (s.1, v, s.2.2),
    .of "cores_per_node" word32 fun s v => (s.1, s.2.1, v)]
    ["max_size", "max_nodes", "cores_per_node"] (0, 0, 0)

/-- A hand-over, all of whose parts have to be there, with the completion policy as in a workflow
document. -/
def decoder : Decoder HandOver :=
  record [
    .of "name" text fun s v => { s with name := v },
    .of "namespace" text fun s v => { s with inNamespace := v },
    .of "workflow" CompletionPolicy.decoder fun s v => { s with completion := v },
    .of "cluster" sizesDecoder fun s v =>
      { s with maxSize := v.1, maxNodes := v.2.1, coresPerNode := v.2.2 },
    .of "jobs" (list text) fun s v => { s with jobs := v }]
    ["name", "namespace", "workflow", "cluster", "jobs"] .unset

end HandOver

namespace Workflow

/-- What there is to hand over of a workflow. -/
def handOver (w : Workflow) : HandOver where
  name := w.name
  inNamespace := w.inNamespace
  completion := w.spec.completion
  maxSize := w.spec.cluster.maxSize
  maxNodes := w.spec.manager.maxNodes
  coresPerNode := w.spec.manager.coresPerNode
  jobs := w.jobFileNames

lemma decoder_reads_fileValue (w : Workflow) : HandOver.decoder.Reads w.fileValue w.handOver := by
  have hsizes : HandOver.sizesDecoder.Reads (valueOfEntries [
      ("max_size", countValue w.spec.cluster.maxSize),
      ("max_nodes", countValue w.spec.manager.maxNodes),
      ("cores_per_node", countValue w.spec.manager.coresPerNode)])
      (w.spec.cluster.maxSize, w.spec.manager.maxNodes, w.spec.manager.coresPerNode) := by
    refine Takes.record (t := (_, _, _)) ?_ ?_ ?_
    · refine .entry (word32_reads _).field ?_
      refine .entry (word32_reads _).field ?_
      refine .entry (word32_reads _).field ?_
      exact .nil _
    · unfold AreApart
      decide
    · simp
  have hjobs : (list text).Reads (.sequence (w.jobFileNames.map .string)) w.jobFileNames :=
    list_reads fun name _ => text_reads name
  refine Takes.record (t := w.handOver) ?_ ?_ ?_
  · refine .entry (text_reads w.name).field ?_
    refine .entry (text_reads w.inNamespace).field ?_
    refine .entry w.spec.completion.decoder_reads.field ?_
    refine .entry hsizes.field ?_
    refine .entry hjobs.field ?_
    exact .nil _
  · unfold AreApart
    decide
  · simp

/-- The documents of the stages that were put together are those of the stages in order, each under the
name in the list. -/
structure ListsDocuments (c : Config) (w : Workflow) (documents : List (String × String)) : Prop where
  names : documents.map Prod.fst = w.jobFileNames
  document : ∀ index j, w.spec.jobs[index]? = some j →
    ∃ a, w.assemble c j = .ok a ∧ documents[index]? = some (jobFileName index, a.document)

lemma getElem?_jobFileNames (w : Workflow) (index : Nat) :
    w.jobFileNames[index]? = (w.spec.jobs[index]?).map fun _ => jobFileName index := by
  rw [jobFileNames, List.getElem?_map]
  by_cases h : index < w.spec.jobs.length
  · rw [List.getElem?_range h, List.getElem?_eq_getElem h]
    rfl
  · rw [List.getElem?_eq_none (by simpa using h), List.getElem?_eq_none (by omega)]
    rfl

lemma listsDocuments_of_jobFiles {c : Config} {w : Workflow} {documents : List (String × String)}
    (h : w.jobFiles c 0 w.spec.jobs = .ok documents) : w.ListsDocuments c documents := by
  obtain ⟨assembled, hassembled, rfl⟩ := jobFiles_eq_ok_iff.mp h
  refine ⟨?_, fun index j hj => ?_⟩
  · rw [keys_numbered, ← hassembled.length_eq, ← List.range_eq_range']
    rfl
  · obtain ⟨hlength, hget⟩ := List.forall₂_iff_get.mp hassembled
    obtain ⟨hindex, rfl⟩ := List.getElem?_eq_some_iff.mp hj
    have hindex' : index < assembled.length := hlength ▸ hindex
    refine ⟨assembled[index], hget index hindex hindex', ?_⟩
    rw [numbered, List.getElem?_map, List.getElem?_zipIdx, List.getElem?_eq_getElem hindex']
    simp

/-- What the manager is handed is the workflow's own: read from the workflow file, the completion policy
and the sizes are those of the workflow, and each stage is listed under the name of its document, which no
other one has. -/
theorem handed_over_unmodified (w : Workflow) (hfile : w.fileValue.IsHeldBy w.file) :
    ofText HandOver.decoder w.file = .ok w.handOver ∧
    w.jobFileNames.Nodup ∧
    (∀ c documents, w.jobFiles c 0 w.spec.jobs = .ok documents → w.ListsDocuments c documents) ∧
    (∀ c files, w.managerFiles c = .ok files → ∀ (index : Nat) j name, w.spec.jobs[index]? = some j →
      w.jobFileNames[index]? = some name → c.manager.entrypoint ≠ name →
        ∃ a, w.assemble c j = .ok a ∧ files.get? name = some a.document) := by
  refine ⟨w.decoder_reads_fileValue.ofText hfile, (List.nodup_cons.mp w.nodup_fileNames).2,
    fun c documents => listsDocuments_of_jobFiles, ?_⟩
  intro c files hfiles index j name hj hname hentrypoint
  rw [getElem?_jobFileNames, hj, Option.map_some, Option.some.injEq] at hname
  subst hname
  exact (hasFiles_of_managerFiles hfiles).document index j hj hentrypoint

/-- A workflow with one stage, and with an event whose condition is a number. -/
def watching : Workflow :=
  let w := (stageless "training" "lab" "1f0a").withStages [JobStep.running "train" "./train.sh"]
  { w with spec := { w.spec with
    completion := ⟨1, "", [⟨"loss", some (.equals (Binary64.ofInt 3)), "grow", some (-5), none, none,
      none, none⟩]⟩ } }

lemma validate_watching : watching.validate .standard = .ok (watching.withDefaults .standard) :=
  validate_of_violation?_eq_none (by decide +kernel)

def watchingLines : List String :=
  ["name: training",
    "namespace: lab",
    "workflow:",
    "  completed: 1",
    "  events:",
    "  - metric: loss",
    "    when: 3.0",
    "    action: grow",
    "    backoff: -5",
    "cluster:",
    "  max_size: 1",
    "  max_nodes: 0",
    "  cores_per_node: 4",
    "jobs:",
    "- job_0.yaml"]

lemma file_watching : (watching.withDefaults .standard).file = Text.asLines watchingLines := by
  decide +kernel

def watchingTokens : List Token :=
  let word (s : String) : Token := .scalar .plain s.toList
  let entry (key : String) (value : List Token) : List Token := .key :: word key :: .value :: value
  let mapping (entries : List (List Token)) : List Token :=
    .blockMappingStart :: entries.flatten ++ [.blockEnd]
  mapping [
    entry "name" [word "training"],
    entry "namespace" [word "lab"],
    entry "workflow" (mapping [
      entry "completed" [word "1"],
      entry "events" (.blockEntry :: mapping [
        entry "metric" [word "loss"],
        entry "when" [word "3.0"],
        entry "action" [word "grow"],
        entry "backoff" [word "-5"]])]),
    entry "cluster" (mapping [
      entry "max_size" [word "1"],
      entry "max_nodes" [word "0"],
      entry "cores_per_node" [word "4"]]),
    entry "jobs" [.blockEntry, word "job_0.yaml"]] ++ [.streamEnd]

lemma tokens_watching : tokens (Text.asLines watchingLines).toList = watchingTokens := by
  rw [tokens, if_pos (by decide +kernel)]
  exact @Reader.finish_of_finishWithin? 60 _ _ (by decide +kernel)

lemma isHeldBy_watching : (watching.withDefaults .standard).fileValue.IsHeldBy
    (watching.withDefaults .standard).file := by
  rw [file_watching, Value.IsHeldBy, Document.ofText, tokens_watching]
  -- The readers of nodes are unfolded along the tokens, of which each takes at least one.
  simp only [Document.ofTokens, watchingTokens, String.reduceToList, List.flatten_cons,
    List.flatten_nil, List.append_nil, List.cons_append, List.nil_append, Document.ofRoot, readNode,
    readProperties, if_true, Option.map_none, Remaining.goOn, Option.getD_none, readEntries,
    readOptional, endsBlockNode, Bool.false_eq_true, if_false, reduceCtorEq, List.length_cons,
    List.length_nil, Nat.reduceAdd, Nat.reduceLT, reduceDIte, readValue, readIndentlessItems,
    endsIndentlessItem, Document.endsText, true_and]
  decide +kernel

theorem watching_is_handed_over :
    watching.validate .standard = .ok (watching.withDefaults .standard) ∧
    (watching.withDefaults .standard).fileValue.IsHeldBy (watching.withDefaults .standard).file ∧
    ofText HandOver.decoder (watching.withDefaults .standard).file =
      .ok ⟨"training", "lab", ⟨1, "", [⟨"loss", some (.equals (Binary64.ofInt 3)), "grow", some (-5),
        none, none, none, none⟩]⟩, 1, 0, 4, ["job_0.yaml"]⟩ :=
  ⟨validate_watching, isHeldBy_watching,
    (handed_over_unmodified (watching.withDefaults .standard) isHeldBy_watching).1.trans
      (congrArg Except.ok (by decide +kernel))⟩

end Workflow

end WorkflowOperator
