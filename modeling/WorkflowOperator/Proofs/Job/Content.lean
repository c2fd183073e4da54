import WorkflowOperator.Proofs.Job.Written
import WorkflowOperator.Proofs.Yaml.Valuing

/-!
# What a job document should stand for

The content of a document is a mapping with every field of the stage under its key, in which fields
that are not set have no entry. A stage is kept by its document if each of its quoted texts is kept by
the quotes and each of its blocks by a literal block.
-/

namespace WorkflowOperator

open Yaml

/-! ### Fields -/

namespace LineValue

/-- What a value should be read as. -/
def value : LineValue → Value
  | quoted s => .string s
  | count n => .int n.toNat
  | flag b => .bool b

/-- Whether a value is read as it should be. -/
def Kept : LineValue → Prop
  | quoted s => KeptByQuotes s.toList
  | count _ => True
  | flag _ => True

instance : DecidablePred Kept
  | quoted s => inferInstanceAs (Decidable (KeptByQuotes s.toList))
  | count _ => inferInstanceAs (Decidable True)
  | flag _ => inferInstanceAs (Decidable True)

@[simp] lemma kept_quoted (s : String) : (quoted s).Kept ↔ KeptByQuotes s.toList := Iff.rfl

@[simp] lemma kept_count (n : UInt32) : (count n).Kept ↔ True := Iff.rfl

@[simp] lemma kept_flag (b : Bool) : (flag b).Kept ↔ True := Iff.rfl

end LineValue

def DocumentField.entry (f : DocumentField) : String × Value := (f.key, f.value.value)

namespace DocumentPart

def key : DocumentPart → String
  | field f => f.key
  | group key _ _ _ _ => key

def value : DocumentPart → Value
  | field f => f.value.value
  | group _ first rest _ _ => .record ((first :: rest).map DocumentField.entry)

def fields : DocumentPart → List DocumentField
  | field f => [f]
  | group _ first rest _ _ => first :: rest

def Kept (p : DocumentPart) : Prop := ∀ f ∈ p.fields, f.value.Kept

instance : DecidablePred Kept := fun p =>
  inferInstanceAs (Decidable (∀ f ∈ p.fields, f.value.Kept))

end DocumentPart

/-! ### Documents -/

namespace ResolvedJob

/-- What a stage's document should stand for. -/
def content (j : ResolvedJob) (script : String) : Value :=
  let s := j.step
  let c := s.config
  let r := j.registry
  let count (n : UInt32) : Value := .int n.toNat
  let optional {α : Type} (key : String) (value : α → Value) (v : Option α) :
      List (String × Value) :=
    (v.map fun a => (key, value a)).toList
  let unlessEmpty (key v : String) : List (String × Value) :=
    if v.isEmpty then [] else [(key, .string v)]
  .record ([("name", .string s.name), ("image", .string s.image), ("workdir", .string s.workdir),
      ("interactive", .bool s.interactive),
      ("config", .record ([("nnodes", count c.nodes), ("cores_per_task", count c.coresPerTask)] ++
        optional "tasks" count c.tasks ++
        [("ngpus", count c.gpus), ("gpulabel", .string c.gpuLabel),
          ("pull_policy", .string c.pullPolicy), ("retry_failure", .bool c.retryFailure)] ++
        optional "walltime" .string c.walltime ++ optional "command" .string c.command)),
      ("registry", .record ([("host", .string r.host), ("plain_http", .bool r.plainHttp)] ++
        unlessEmpty "push" r.push ++ unlessEmpty "pull" r.pull)),
      ("properties", .record (s.properties.toList.map fun e => (e.1, .string e.2)))] ++
    unlessEmpty "app-config" s.appConfig ++ unlessEmpty "script" script)

/-- The texts of a stage that its document quotes, apart from the keys of its properties. -/
def quotedTexts (j : ResolvedJob) : List String :=
  let s := j.step
  [s.name, s.image, s.workdir, s.config.gpuLabel, s.config.pullPolicy] ++
    s.config.walltime.toList ++ s.config.command.toList ++
    [j.registry.host, j.registry.push, j.registry.pull] ++ s.properties.values

/-- Whether the document of a stage keeps all of its texts. -/
def IsKept (j : ResolvedJob) (script : String) : Prop :=
  (∀ s ∈ j.quotedTexts, KeptByQuotes s.toList) ∧ KeptByBlock j.step.appConfig.toList ∧
    KeptByBlock script.toList

instance (j : ResolvedJob) (script : String) : Decidable (j.IsKept script) :=
  inferInstanceAs (Decidable (_ ∧ _ ∧ _))

def frontFields (j : ResolvedJob) : List (String × Value) :=
  j.parts.map (fun p => (p.key, p.value)) ++
    [("properties", .record (j.step.properties.toList.map fun e => (e.1, .string e.2)))]

lemma content_eq (j : ResolvedJob) (script : String) :
    j.content script =
      .record (j.frontFields ++ (j.documentBlocks script).map fun b => (b.1, .string b.2)) := by
  have hoption : ∀ {α : Type} (write : α → DocumentField) (v : Option α),
      (v.map write).toList.map DocumentField.entry =
        (v.map fun a => (write a).entry).toList := by
    intro α write v
    cases v <;> rfl
  have hnonempty : ∀ key s : String, ∀ rest : List (String × String),
      ((if !s.isEmpty then (key, s) :: rest else rest).map fun b => (b.1, (.string b.2 : Value))) =
        (if s.isEmpty then [] else [(key, .string s)]) ++ rest.map fun b => (b.1, .string b.2) := by
    intro key s rest
    cases s.isEmpty <;> rfl
  simp only [content, frontFields, parts, configFields, registryFields, documentBlocks,
    DocumentPart.key, DocumentPart.value, List.map_cons, List.map_nil, List.map_append, hoption,
    apply_ite (List.map DocumentField.entry), DocumentField.entry, LineValue.value, List.filter_cons,
    List.filter_nil, hnonempty, List.cons_append, List.nil_append, List.append_nil,
    List.append_assoc]

lemma keptByBlock_documentBlocks_iff (j : ResolvedJob) (script : String) :
    (∀ b ∈ j.documentBlocks script, KeptByBlock b.2.toList) ↔
      KeptByBlock j.step.appConfig.toList ∧ KeptByBlock script.toList := by
  have hblock : ∀ key s : String, (∀ b ∈ [(key, s)].filter fun b => !b.2.isEmpty,
      KeptByBlock b.2.toList) ↔ KeptByBlock s.toList := by
    intro key s
    rw [List.filter_singleton]
    cases h : s.isEmpty with
    | true =>
      rw [String.isEmpty_iff.mp h]
      simp [KeptByBlock]
    | false => simp
  rw [documentBlocks, ← List.singleton_append, List.filter_append, List.forall_mem_append, hblock,
    hblock]

lemma isKept_iff (j : ResolvedJob) (script : String) :
    j.IsKept script ↔ (∀ p ∈ j.parts, p.Kept) ∧
      (∀ e ∈ j.step.properties.toList, KeptByQuotes e.2.toList) ∧
        ∀ b ∈ j.documentBlocks script, KeptByBlock b.2.toList := by
  have hquoted : ∀ (key slotName : String) (hkey : IsKey key) (v : Option String),
      (∀ f ∈ (v.map fun s => DocumentField.mk key slotName (.quoted s) hkey).toList, f.value.Kept) ↔
        ∀ s ∈ v.toList, KeptByQuotes s.toList := by
    intro key slotName hkey v
    cases v <;> simp
  have hcount : ∀ (key slotName : String) (hkey : IsKey key) (v : Option UInt32),
      (∀ f ∈ (v.map fun n => DocumentField.mk key slotName (.count n) hkey).toList, f.value.Kept) ↔
        True := by
    intro key slotName hkey v
    cases v <;> simp
  have hempty : ∀ (key slotName s : String) (hkey : IsKey key),
      (∀ f ∈ if s.isEmpty then [] else [DocumentField.mk key slotName (.quoted s) hkey],
        f.value.Kept) ↔ KeptByQuotes s.toList := by
    intro key slotName s hkey
    split
    · rename_i h
      rw [String.isEmpty_iff.mp h]
      simp [KeptByQuotes]
    · simp
  have hproperties : (∀ s ∈ j.step.properties.values, KeptByQuotes s.toList) ↔
      ∀ e ∈ j.step.properties.toList, KeptByQuotes e.2.toList := List.forall_mem_map
  simp only [IsKept, quotedTexts, parts, DocumentPart.Kept, DocumentPart.fields, configFields,
    registryFields, List.forall_mem_cons, List.forall_mem_append, List.not_mem_nil, false_imp_iff,
    implies_true, hquoted, hcount, hempty, keptByBlock_documentBlocks_iff, hproperties,
    LineValue.kept_quoted, LineValue.kept_count, LineValue.kept_flag, and_true, true_and]
  tauto

end ResolvedJob

end WorkflowOperator
