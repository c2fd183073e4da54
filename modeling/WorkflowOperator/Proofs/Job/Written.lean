import WorkflowOperator.Job.Document
import WorkflowOperator.Proofs.Template.Rendering
import WorkflowOperator.Proofs.Text.ShellWord
import WorkflowOperator.Proofs.Yaml.FlowScanning
import WorkflowOperator.Yaml.Core

/-!
# The text of a job document

The lines of a document are fields, alone or several under a heading, each with a value of one of three
kinds, and the properties of the stage as an object. Filling in the template puts the text of each value
where its placeholder stood and leaves everything else as it is, so the text of a document is its written
lines and its blocks. No value breaks its line, so there is always such a text.
-/

namespace WorkflowOperator

open Template Text Yaml Yaml.Reader

/-! ### Lines -/

/-- A line of a job document. -/
inductive DocumentLine
  /-- A key under which further lines stand. -/
  | heading (key : String)
  /-- A key with a value, at a depth of indentation, and the placeholder for the value. -/
  | entry (depth : Nat) (key slotName value : String)
deriving DecidableEq, Repr

namespace DocumentLine

def text : DocumentLine → String
  | heading key => key ++ ":\n"
  | entry depth key slotName _ => entryLine depth key slotName

/-- The values of a line put to others. -/
def bind (b : Bindings) : DocumentLine → Except Template.Fault Bindings
  | heading _ => .ok b
  | entry _ _ slotName value => b.insert slotName value

end DocumentLine

namespace ResolvedJob

def documentLines (j : ResolvedJob) : List DocumentLine :=
  let s := j.step
  let optional {α : Type} (key slotName : String) (write : α → String) (v : Option α) :
      List DocumentLine :=
    (v.map fun a => .entry 1 key slotName (write a)).toList
  let unlessEmpty (key slotName v : String) : List DocumentLine :=
    if v.isEmpty then [] else [.entry 1 key slotName (Json.quote v)]
  [.entry 0 "name" "yaml_name" (Json.quote s.name),
    .entry 0 "image" "yaml_image" (Json.quote s.image),
    .entry 0 "workdir" "yaml_workdir" (Json.quote s.workdir),
    .entry 0 "interactive" "yaml_interactive" (flagText s.interactive),
    .heading "config",
    .entry 1 "nnodes" "yaml_nodes" (countText s.config.nodes),
    .entry 1 "cores_per_task" "yaml_cores_per_task" (countText s.config.coresPerTask)] ++
  optional "tasks" "yaml_tasks" countText s.config.tasks ++
  [.entry 1 "ngpus" "yaml_gpus" (countText s.config.gpus),
    .entry 1 "gpulabel" "yaml_gpu_label" (Json.quote s.config.gpuLabel),
    .entry 1 "pull_policy" "yaml_pull_policy" (Json.quote s.config.pullPolicy),
    .entry 1 "retry_failure" "yaml_retry_failure" (flagText s.config.retryFailure)] ++
  optional "walltime" "yaml_walltime" Json.quote s.config.walltime ++
  optional "command" "yaml_command" Json.quote s.config.command ++
  [.heading "registry",
    .entry 1 "host" "yaml_registry_host" (Json.quote j.registry.host),
    .entry 1 "plain_http" "yaml_plain_http" (flagText j.registry.plainHttp)] ++
  unlessEmpty "push" "yaml_push" j.registry.push ++
  unlessEmpty "pull" "yaml_pull" j.registry.pull ++
  [.entry 0 "properties" "yaml_properties" (Json.ofTextMap s.properties).compact]

/-- The lines of the template are chosen as those of the document are. -/
lemma templateLines_eq (j : ResolvedJob) :
    j.templateLines = j.documentLines.map DocumentLine.text := by
  have hoption : ∀ {α : Type} (key slotName : String) (write : α → String) (v : Option α),
      (v.map fun a => DocumentLine.entry 1 key slotName (write a)).toList.map DocumentLine.text =
        Fragment.when v.isSome [entryLine 1 key slotName] := by
    intro α key slotName write v
    cases v <;> rfl
  have hnonempty : ∀ key slotName v : String,
      (if v.isEmpty then [] else [DocumentLine.entry 1 key slotName (Json.quote v)]).map
        DocumentLine.text = Fragment.when (!v.isEmpty) [entryLine 1 key slotName] := by
    intro key slotName v
    cases v.isEmpty <;> rfl
  simp only [documentLines, List.map_append, hoption, hnonempty]
  rfl

lemma documentBindings_eq (j : ResolvedJob) :
    j.documentBindings = j.documentLines.foldlM DocumentLine.bind .empty := by
  have hoption : ∀ {α : Type} (key slotName : String) (write : α → String) (v : Option α)
      (b : Bindings), (v.map fun a => DocumentLine.entry 1 key slotName (write a)).toList.foldlM
        DocumentLine.bind b = b.insertSome slotName (v.map write) := by
    intro α key slotName write v b
    cases v with
    | none => rfl
    | some a =>
      simp only [Option.map_some, Option.toList_some, List.foldlM_cons, List.foldlM_nil, bind_pure,
        DocumentLine.bind, Bindings.insertSome]
  have hnonempty : ∀ (key slotName v : String) (b : Bindings),
      (if v.isEmpty then [] else [DocumentLine.entry 1 key slotName (Json.quote v)]).foldlM
        DocumentLine.bind b = b.insertWhen (!v.isEmpty) slotName (Json.quote v) := by
    intro key slotName v b
    cases v.isEmpty with
    | true => rfl
    | false =>
      simp only [Bool.false_eq_true, if_false, List.foldlM_cons, List.foldlM_nil, bind_pure,
        DocumentLine.bind, Bindings.insertWhen, Bool.not_false, if_true]
  have hheading : ∀ (b : Bindings) (next : Bindings → Except Template.Fault Bindings),
      (Except.ok b >>= next) = next b := fun _ _ => rfl
  simp only [documentBindings, documentLines, List.foldlM_append, List.foldlM_cons, List.foldlM_nil,
    hoption, hnonempty, hheading, DocumentLine.bind, bind_assoc, bind_pure]

end ResolvedJob

/-- What stands after a key on one line. -/
inductive LineValue
  | quoted (s : String)
  | count (n : UInt32)
  | flag (b : Bool)

def LineValue.text : LineValue → String
  | quoted s => Json.quote s
  | count n => countText n
  | flag b => flagText b

/-! ### Values on one line -/

lemma isWord_countText (n : UInt32) : isWord (countText n).toList = true := by
  have hdigits : ∀ c ∈ (countText n).toList, isWordChar c = true :=
    fun c hc => isWordChar_of_mem_toString hc
  have hne : (countText n).toList ≠ [] := by
    have htext : (countText n).toList = Nat.toDigits 10 n.toNat := Nat.toList_repr
    rw [htext]
    exact Nat.toDigits_ne_nil
  obtain ⟨c, rest, hcons⟩ := List.exists_cons_of_ne_nil hne
  rw [hcons] at hdigits ⊢
  rw [isWord, Bool.and_eq_true, List.all_eq_true]
  refine ⟨hdigits c List.mem_cons_self, fun d hd => ?_⟩
  exact isKeyChar_of_isWordChar (hdigits d (List.mem_cons_of_mem _ hd))

lemma isWord_flagText (b : Bool) : isWord (flagText b).toList = true := by
  cases b <;> decide

lemma escape_on_line (c : Char) :
    ((Json.escape c).all fun d => d != '\n' && d != '\r') = true := by
  by_cases hlow : c.toNat < 0x20
  · obtain ⟨n, hn, rfl⟩ : ∃ n, n < 0x20 ∧ c = Char.ofNat n :=
      ⟨c.toNat, hlow, (Char.ofNat_toNat c).symm⟩
    have hcontrol : ∀ n < 0x20,
        ((Json.escape (Char.ofNat n)).all fun d => d != '\n' && d != '\r') = true := by decide
    exact hcontrol n hn
  by_cases hquote : c = '"'
  · subst hquote
    decide
  by_cases hbackslash : c = '\\'
  · subst hbackslash
    decide
  have hfeed : c ≠ '\n' := by
    rintro rfl
    exact hlow (by decide)
  have hreturn : c ≠ '\r' := by
    rintro rfl
    exact hlow (by decide)
  rw [escape_of_raw hquote hbackslash (by omega)]
  simp [hfeed, hreturn]

lemma ne_of_mem_escape {c d : Char} (h : d ∈ Json.escape c) : d ≠ '\n' ∧ d ≠ '\r' := by
  have hd := List.all_eq_true.mp (escape_on_line c) d h
  rwa [Bool.and_eq_true, bne_iff_ne, bne_iff_ne] at hd

lemma LineValue.breaksLine_text (v : LineValue) : Bindings.breaksLine v.text = false := by
  have hword : ∀ s : String, isWord s.toList = true → Bindings.breaksLine s = false := by
    intro s hs
    rw [Bindings.breaksLine_eq_false_iff]
    intro c hc
    have hkey := isKeyChar_of_isWord hs c hc
    exact ⟨ne_of_isKeyChar hkey (by decide), ne_of_isKeyChar hkey (by decide)⟩
  cases v with
  | quoted s =>
    rw [Bindings.breaksLine_eq_false_iff]
    intro c hc
    have htext : (LineValue.quoted s).text.toList = '"' :: (s.toList.flatMap Json.escape ++ ['"']) := by
      simp [LineValue.text, Json.quote]
    rw [htext, List.mem_cons, List.mem_append, List.mem_singleton, List.mem_flatMap] at hc
    rcases hc with rfl | ⟨d, -, hd⟩ | rfl
    · decide
    · exact ne_of_mem_escape hd
    · decide
  | count n => exact hword _ (isWord_countText n)
  | flag b => exact hword _ (isWord_flagText b)

lemma breaksLine_ofTextMap (m : TextMap String) :
    Bindings.breaksLine (Json.ofTextMap m).compact = false := by
  have hmember : ∀ e : String × String, ∀ c ∈ memberText e, c ≠ '\n' ∧ c ≠ '\r' := by
    intro e c hc
    simp only [memberText, List.mem_cons, List.mem_append, List.mem_flatMap, List.not_mem_nil,
      or_false] at hc
    rcases hc with rfl | ⟨d, -, hd⟩ | rfl | rfl | rfl | ⟨d, -, hd⟩ | rfl
    any_goals decide
    · exact ne_of_mem_escape hd
    · exact ne_of_mem_escape hd
  have hmembers : ∀ (l : List (String × String)) (first : Bool),
      ∀ c ∈ membersText first l, c ≠ '\n' ∧ c ≠ '\r' := by
    intro l
    induction l with
    | nil =>
      intro first c hc
      rw [membersText, List.mem_singleton] at hc
      subst hc
      decide
    | cons e l ih =>
      intro first c hc
      rw [membersText, List.mem_append, List.mem_append] at hc
      rcases hc with (hc | hc) | hc
      · cases first with
        | true => cases hc
        | false =>
          rw [if_neg Bool.false_ne_true, List.mem_singleton] at hc
          subst hc
          decide
      · exact hmember e c hc
      · exact ih false c hc
  rw [Bindings.breaksLine_eq_false_iff, toList_ofTextMap]
  intro c hc
  rcases List.mem_cons.mp hc with rfl | hc
  · decide
  · exact hmembers _ _ c hc

/-! ### Fields -/

/-- Whether a text can be a key that stands for nothing but itself. -/
def IsKey (key : String) : Prop :=
  Yaml.Reader.isWord key.toList = true ∧ key.toList.length ≤ 1024 ∧
    Yaml.Core.plainMeaning key = .text

instance : DecidablePred IsKey := fun _ => inferInstanceAs (Decidable (_ ∧ _ ∧ _))

lemma IsKey.isText {key : String} (h : IsKey key) :
    Yaml.Core.plainMeaning (String.ofList key.toList) = .text := by
  rw [String.ofList_toList]
  exact h.2.2

structure DocumentField where
  key : String
  slotName : String
  value : LineValue
  isKey : IsKey key := by decide

def DocumentField.line (depth : Nat) (f : DocumentField) : DocumentLine :=
  .entry depth f.key f.slotName f.value.text

/-- A field on its own, or at least one under a heading and all under different keys. -/
inductive DocumentPart
  | field (f : DocumentField)
  | group (key : String) (first : DocumentField) (rest : List DocumentField) (isKey : IsKey key)
    (distinct : ((first :: rest).map DocumentField.key).Nodup)

namespace DocumentPart

def lines : DocumentPart → List DocumentLine
  | field f => [f.line 0]
  | group key first rest _ _ => .heading key :: (first :: rest).map (DocumentField.line 1)

end DocumentPart

namespace ResolvedJob

def configFields (j : ResolvedJob) : List DocumentField :=
  let c := j.step.config
  [.mk "cores_per_task" "yaml_cores_per_task" (.count c.coresPerTask)] ++
  (c.tasks.map fun n => .mk "tasks" "yaml_tasks" (.count n)).toList ++
  [.mk "ngpus" "yaml_gpus" (.count c.gpus),
    .mk "gpulabel" "yaml_gpu_label" (.quoted c.gpuLabel),
    .mk "pull_policy" "yaml_pull_policy" (.quoted c.pullPolicy),
    .mk "retry_failure" "yaml_retry_failure" (.flag c.retryFailure)] ++
  (c.walltime.map fun s => .mk "walltime" "yaml_walltime" (.quoted s)).toList ++
  (c.command.map fun s => .mk "command" "yaml_command" (.quoted s)).toList

def registryFields (j : ResolvedJob) : List DocumentField :=
  let r := j.registry
  [.mk "plain_http" "yaml_plain_http" (.flag r.plainHttp)] ++
  (if r.push.isEmpty then [] else [.mk "push" "yaml_push" (.quoted r.push)]) ++
  (if r.pull.isEmpty then [] else [.mk "pull" "yaml_pull" (.quoted r.pull)])

lemma configFields_keys (j : ResolvedJob) : (j.configFields.map DocumentField.key).Sublist
    (["cores_per_task"] ++ ["tasks"] ++ ["ngpus", "gpulabel", "pull_policy", "retry_failure"] ++
      ["walltime"] ++ ["command"]) := by
  have hoption : ∀ {α : Type} (write : α → DocumentField) (key : String) (v : Option α),
      (∀ a, (write a).key = key) →
      ((v.map write).toList.map DocumentField.key).Sublist [key] := by
    intro α write key v hkey
    cases v with
    | none => exact List.nil_sublist _
    | some a => simp [hkey]
  simp only [configFields, List.map_append]
  exact .append (.append (.append (.append (.refl _) (hoption _ _ _ fun _ => rfl)) (.refl _))
    (hoption _ _ _ fun _ => rfl)) (hoption _ _ _ fun _ => rfl)

lemma registryFields_keys (j : ResolvedJob) : (j.registryFields.map DocumentField.key).Sublist
    (["plain_http"] ++ ["push"] ++ ["pull"]) := by
  have hnonempty : ∀ (f : DocumentField) (b : Bool),
      ((if b then [] else [f]).map DocumentField.key).Sublist [f.key] := by
    intro f b
    cases b with
    | true => exact List.nil_sublist _
    | false => exact List.Sublist.refl _
  simp only [registryFields, List.map_append]
  exact .append (.append (.refl _) (hnonempty _ _)) (hnonempty _ _)

/-- The lines of a stage's document before its properties, in parts. -/
def parts (j : ResolvedJob) : List DocumentPart :=
  [.field (.mk "name" "yaml_name" (.quoted j.step.name)),
    .field (.mk "image" "yaml_image" (.quoted j.step.image)),
    .field (.mk "workdir" "yaml_workdir" (.quoted j.step.workdir)),
    .field (.mk "interactive" "yaml_interactive" (.flag j.step.interactive)),
    .group "config" (.mk "nnodes" "yaml_nodes" (.count j.step.config.nodes)) j.configFields
      (by decide) ((j.configFields_keys.cons_cons "nnodes").nodup (by decide)),
    .group "registry" (.mk "host" "yaml_registry_host" (.quoted j.registry.host)) j.registryFields
      (by decide) ((j.registryFields_keys.cons_cons "host").nodup (by decide))]

lemma documentLines_eq (j : ResolvedJob) :
    j.documentLines = j.parts.flatMap DocumentPart.lines ++
      [.entry 0 "properties" "yaml_properties" (Json.ofTextMap j.step.properties).compact] := by
  have hoption : ∀ {α : Type} (write : α → DocumentField) (v : Option α),
      (v.map write).toList.map (DocumentField.line 1) =
        (v.map fun a => (write a).line 1).toList := by
    intro α write v
    cases v <;> rfl
  simp only [documentLines, parts, configFields, registryFields, List.flatMap_cons,
    List.flatMap_nil, DocumentPart.lines, List.map_append, List.map_cons, List.map_nil,
    hoption, apply_ite (List.map (DocumentField.line 1)), DocumentField.line, LineValue.text,
    List.cons_append, List.nil_append, List.append_assoc, List.append_nil]

end ResolvedJob

/-! ### Placeholders and values -/

namespace DocumentLine

def slot? : DocumentLine → Option (String × String)
  | heading _ => none
  | entry _ _ slotName value => some (slotName, value)

/-- Whether a line has no braces but those of its placeholder. -/
def isClean : DocumentLine → Bool
  | heading key => !key.toList.contains '{'
  | entry _ key slotName _ => !key.toList.contains '{' && isSlotName slotName

def emptied : DocumentLine → DocumentLine
  | heading key => .heading key
  | entry depth key slotName _ => .entry depth key slotName ""

lemma isClean_emptied (l : DocumentLine) : l.emptied.isClean = l.isClean := by
  cases l <;> rfl

def written : DocumentLine → List Char
  | heading key => key.toList ++ [':', '\n']
  | entry depth key _ value =>
    List.replicate (2 * depth) ' ' ++ key.toList ++ ':' :: ' ' :: value.toList ++ ['\n']

def pieces : DocumentLine → List Piece
  | heading key => (key.toList ++ [':', '\n']).map .char
  | entry depth key slotName _ =>
    (List.replicate (2 * depth) ' ' ++ key.toList ++ [':', ' ']).map .char ++
      [.placeholder slotName, .char '\n']

/-- The bindings of lines: each placeholder gets the value of its line, if no other line has the same
placeholder. -/
lemma foldlM_bind {lines : List DocumentLine}
    (hslots : (lines.filterMap slot?).Pairwise fun x y => x.1 ≠ y.1)
    (hvalues : ∀ e ∈ lines.filterMap slot?, Bindings.breaksLine e.2 = false) (b : Bindings) :
    ∃ b', lines.foldlM DocumentLine.bind b = .ok b' ∧
      (∀ e ∈ lines.filterMap slot?, b'.get? e.1 = some e.2) ∧
        ∀ name, (∀ e ∈ lines.filterMap slot?, e.1 ≠ name) → b'.get? name = b.get? name := by
  induction lines generalizing b with
  | nil => exact ⟨b, rfl, by simp, fun _ _ => rfl⟩
  | cons l lines ih =>
    rw [List.foldlM_cons]
    cases l with
    | heading key => exact ih hslots hvalues b
    | entry depth key slotName value =>
      have hcons : (entry depth key slotName value :: lines).filterMap slot? =
          (slotName, value) :: lines.filterMap slot? := rfl
      rw [hcons] at hslots hvalues ⊢
      rw [List.pairwise_cons] at hslots
      rw [List.forall_mem_cons] at hvalues
      have hinsert : b.insert slotName value = .ok ⟨b.values.insert slotName value⟩ :=
        Bindings.insert_eq hvalues.1
      obtain ⟨b', hfold, hslot, hother⟩ := ih hslots.2 hvalues.2 ⟨b.values.insert slotName value⟩
      refine ⟨b', ?_, ?_, ?_⟩
      · rw [DocumentLine.bind, hinsert]
        exact hfold
      · rw [List.forall_mem_cons]
        refine ⟨?_, hslot⟩
        rw [hother slotName fun e he => (hslots.1 e he).symm]
        exact Bindings.get?_insert_self hinsert
      · intro name hname
        rw [List.forall_mem_cons] at hname
        rw [hother name hname.2]
        exact Bindings.get?_insert_of_ne hname.1.symm hinsert

lemma pieces_text {l : DocumentLine} (hclean : l.isClean = true) (rest : List Char) :
    Template.pieces (l.text.toList ++ rest) = l.pieces ++ Template.pieces rest := by
  cases l with
  | heading key =>
    have hkey : '{' ∉ key.toList ++ [':', '\n'] := by
      simpa [isClean] using hclean
    have htext : (DocumentLine.heading key).text.toList = key.toList ++ [':', '\n'] := by
      simp [text]
    rw [htext, pieces_append hkey]
    rfl
  | entry depth key slotName value =>
    rw [isClean, Bool.and_eq_true] at hclean
    have hkey : '{' ∉ List.replicate (2 * depth) ' ' ++ key.toList ++ [':', ' '] := by
      simpa using hclean.1
    have htext : (DocumentLine.entry depth key slotName value).text.toList ++ rest =
        (List.replicate (2 * depth) ' ' ++ key.toList ++ [':', ' ']) ++
          ((slot slotName).toList ++ ('\n' :: rest)) := by
      simp [text, entryLine]
    rw [htext, pieces_append hkey, pieces_slot hclean.2, pieces_cons_of_ne (by decide)]
    simp [pieces]

lemma pieces_lines {lines : List DocumentLine} (hclean : ∀ l ∈ lines, l.isClean = true) :
    Template.pieces (String.join (lines.map text)).toList = lines.flatMap pieces := by
  rw [String.toList_join]
  induction lines with
  | nil => simp [Template.pieces]
  | cons l lines ih =>
    rw [List.map_cons, List.flatMap_cons, pieces_text (hclean l List.mem_cons_self),
      ih (fun l' hmem => hclean l' (List.mem_cons_of_mem _ hmem)), List.flatMap_cons]

lemma char_notMem_pieces {l : DocumentLine} (hclean : l.isClean = true) : .char '{' ∉ l.pieces := by
  cases l with
  | heading key => simpa [isClean, pieces] using hclean
  | entry depth key slotName value =>
    rw [isClean, Bool.and_eq_true] at hclean
    simpa [pieces] using hclean.1

lemma names_pieces (l : DocumentLine) :
    l.pieces.filterMap Piece.name? = (l.slot?.map Prod.fst).toList := by
  have hnone : ∀ s : List Char, (s.map Piece.char).filterMap Piece.name? = [] := by
    intro s
    rw [List.filterMap_map, List.filterMap_eq_nil_iff]
    exact fun _ _ => rfl
  cases l with
  | heading key => exact hnone _
  | entry depth key slotName value =>
    rw [pieces, List.filterMap_append, hnone]
    rfl

lemma fill_pieces {l : DocumentLine} {b : Bindings}
    (hvalue : ∀ e ∈ l.slot?, b.get? e.1 = some e.2) :
    l.pieces.flatMap (Piece.fill b) = l.written := by
  have hcopy : ∀ s : List Char, (s.map Piece.char).flatMap (Piece.fill b) = s := by
    intro s
    induction s with
    | nil => rfl
    | cons c s ih => rw [List.map_cons, List.flatMap_cons, ih]; rfl
  cases l with
  | heading key => exact hcopy _
  | entry depth key slotName value =>
    have hget : b.get? slotName = some value := hvalue (slotName, value) rfl
    rw [pieces, List.flatMap_append, hcopy]
    simp [written, Piece.fill, hget]

lemma fill_lines {lines : List DocumentLine} {b : Bindings}
    (hclean : ∀ l ∈ lines, l.isClean = true)
    (hvalues : ∀ e ∈ lines.filterMap slot?, b.get? e.1 = some e.2) :
    fill b (String.join (lines.map text)) = String.ofList (lines.flatMap written) := by
  rw [fill, pieces_lines hclean, List.flatMap_assoc]
  refine congrArg String.ofList (List.flatMap_congr fun l hl => ?_)
  exact fill_pieces fun e he => hvalues e (List.mem_filterMap.mpr ⟨l, hl, he⟩)

end DocumentLine

namespace ResolvedJob

def emptyEntry (depth : Nat) (key slotName : String) : DocumentLine := .entry depth key slotName ""

/-- The lines that a document can have, in order and without their values. -/
def frame : List DocumentLine :=
  [emptyEntry 0 "name" "yaml_name", emptyEntry 0 "image" "yaml_image",
    emptyEntry 0 "workdir" "yaml_workdir", emptyEntry 0 "interactive" "yaml_interactive",
    DocumentLine.heading "config", emptyEntry 1 "nnodes" "yaml_nodes",
    emptyEntry 1 "cores_per_task" "yaml_cores_per_task"] ++ [emptyEntry 1 "tasks" "yaml_tasks"] ++
  [emptyEntry 1 "ngpus" "yaml_gpus", emptyEntry 1 "gpulabel" "yaml_gpu_label",
    emptyEntry 1 "pull_policy" "yaml_pull_policy",
    emptyEntry 1 "retry_failure" "yaml_retry_failure"] ++ [emptyEntry 1 "walltime" "yaml_walltime"] ++
  [emptyEntry 1 "command" "yaml_command"] ++
  [DocumentLine.heading "registry", emptyEntry 1 "host" "yaml_registry_host",
    emptyEntry 1 "plain_http" "yaml_plain_http"] ++ [emptyEntry 1 "push" "yaml_push"] ++
  [emptyEntry 1 "pull" "yaml_pull"] ++ [emptyEntry 0 "properties" "yaml_properties"]

lemma emptied_documentLines_sublist (j : ResolvedJob) :
    (j.documentLines.map DocumentLine.emptied).Sublist frame := by
  have hoption : ∀ {α : Type} (key slotName : String) (write : α → String) (v : Option α),
      ((v.map fun a => DocumentLine.entry 1 key slotName (write a)).toList.map
        DocumentLine.emptied).Sublist [.entry 1 key slotName ""] := by
    intro α key slotName write v
    cases v with
    | none => exact List.nil_sublist _
    | some a => exact List.Sublist.refl _
  have hnonempty : ∀ key slotName v : String,
      ((if v.isEmpty then [] else [DocumentLine.entry 1 key slotName (Json.quote v)]).map
        DocumentLine.emptied).Sublist [.entry 1 key slotName ""] := by
    intro key slotName v
    split
    · exact List.nil_sublist _
    · exact List.Sublist.refl _
  simp only [documentLines, List.map_append]
  unfold frame
  exact .append (.append (.append (.append (.append (.append (.append (.append (.refl _)
    (hoption _ _ _ _)) (.refl _)) (hoption _ _ _ _)) (hoption _ _ _ _)) (.refl _))
    (hnonempty _ _ _)) (hnonempty _ _ _)) (.refl _)

lemma isClean_documentLines (j : ResolvedJob) : ∀ l ∈ j.documentLines, l.isClean = true := by
  intro l hl
  have hframe : ∀ l ∈ frame, l.isClean = true := by decide
  have hmem := j.emptied_documentLines_sublist.mem (List.mem_map_of_mem hl)
  rw [← l.isClean_emptied]
  exact hframe _ hmem

lemma slots_documentLines (j : ResolvedJob) :
    (j.documentLines.filterMap DocumentLine.slot?).Pairwise fun x y => x.1 ≠ y.1 := by
  have hframe : (frame.filterMap DocumentLine.slot?).Pairwise fun x y => x.1 ≠ y.1 := by decide
  have hsub := hframe.sublist (j.emptied_documentLines_sublist.filterMap DocumentLine.slot?)
  rw [List.filterMap_map] at hsub
  have hslot : DocumentLine.slot? ∘ DocumentLine.emptied =
      fun l => (DocumentLine.slot? l).map fun e => (e.1, "") := by
    funext l
    cases l <;> rfl
  rw [hslot, ← List.map_filterMap, List.pairwise_map] at hsub
  exact hsub

lemma values_documentLines (j : ResolvedJob) :
    ∀ e ∈ j.documentLines.filterMap DocumentLine.slot?, Bindings.breaksLine e.2 = false := by
  have hfield : ∀ (f : DocumentField) (depth : Nat), ∀ e ∈ (f.line depth).slot?,
      Bindings.breaksLine e.2 = false := by
    intro f depth e he
    cases he
    exact f.value.breaksLine_text
  intro e he
  obtain ⟨l, hl, hslot⟩ := List.mem_filterMap.mp he
  rw [documentLines_eq, List.mem_append, List.mem_flatMap, List.mem_singleton] at hl
  rcases hl with ⟨p, -, hp⟩ | rfl
  · cases p with
    | field f =>
      rw [DocumentPart.lines, List.mem_singleton] at hp
      subst hp
      exact hfield f 0 e hslot
    | group key first rest isKey distinct =>
      rw [DocumentPart.lines, List.mem_cons, List.mem_map] at hp
      rcases hp with rfl | ⟨f, -, rfl⟩
      · cases hslot
      · exact hfield f 1 e hslot
  · cases hslot
    exact breaksLine_ofTextMap _

def writtenDocument (j : ResolvedJob) (script : String) : String :=
  String.ofList (j.documentLines.flatMap DocumentLine.written ++
    (j.documentBlocks script).flatMap fun b => (literalBlock b.1 b.2).toList)

/-- Only the lines of a document are searched for placeholders. -/
lemma texts_documentTemplate (j : ResolvedJob) (script : String) :
    (j.documentTemplate script).texts = [String.join (j.documentLines.map DocumentLine.text)] := by
  have hliterals : ((j.documentBlocks script).map fun b =>
      Segment.literal (literalBlock b.1 b.2)).filterMap Segment.text? = [] := by
    rw [List.filterMap_map, List.filterMap_eq_nil_iff]
    exact fun _ _ => rfl
  rw [← templateLines_eq]
  change List.filterMap Segment.text? (_ :: _) = _
  rw [List.filterMap_cons, hliterals]
  rfl

lemma outside_documentTemplate (j : ResolvedJob) (script : String) :
    ∀ s ∈ (j.documentTemplate script).texts, '{' ∉ outside s.toList := by
  intro s hs
  rw [texts_documentTemplate, List.mem_singleton] at hs
  rw [hs, mem_outside_iff, DocumentLine.pieces_lines j.isClean_documentLines, List.mem_flatMap]
  rintro ⟨l, hl, hchar⟩
  exact DocumentLine.char_notMem_pieces (j.isClean_documentLines l hl) hchar

lemma mem_placeholders_documentTemplate {j : ResolvedJob} {script name : String} :
    name ∈ (j.documentTemplate script).placeholders ↔
      ∃ e ∈ j.documentLines.filterMap DocumentLine.slot?, e.1 = name := by
  have hnames : placeholderNames (String.join (j.documentLines.map DocumentLine.text)).toList =
      (j.documentLines.filterMap DocumentLine.slot?).map Prod.fst := by
    rw [placeholderNames, DocumentLine.pieces_lines j.isClean_documentLines,
      List.filterMap_flatMap, List.map_filterMap, List.filterMap_eq_flatMap_toList]
    exact List.flatMap_congr fun l _ => l.names_pieces
  simp only [mem_placeholders_iff, texts_documentTemplate, List.mem_singleton, exists_eq_left, hnames,
    List.mem_map]

lemma exists_documentBindings (j : ResolvedJob) : ∃ b, j.documentBindings = .ok b ∧
    (∀ e ∈ j.documentLines.filterMap DocumentLine.slot?, b.get? e.1 = some e.2) ∧
      ∀ name, (∀ e ∈ j.documentLines.filterMap DocumentLine.slot?, e.1 ≠ name) →
        b.get? name = none := by
  rw [documentBindings_eq]
  exact DocumentLine.foldlM_bind j.slots_documentLines j.values_documentLines .empty

lemma render_documentTemplate {j : ResolvedJob} {b : Bindings}
    (hvalues : ∀ e ∈ j.documentLines.filterMap DocumentLine.slot?, b.get? e.1 = some e.2)
    (script : String) :
    (j.documentTemplate script).render b = .ok (j.writtenDocument script) := by
  have hbound : ∀ s ∈ (j.documentTemplate script).texts,
      ∀ name ∈ placeholderNames s.toList, b.contains name = true := by
    intro s hs name hname
    obtain ⟨e, he, rfl⟩ :=
      mem_placeholders_documentTemplate.mp (mem_placeholders_iff.mpr ⟨s, hs, hname⟩)
    rw [Bindings.contains, SortedMap.contains_eq_true_iff]
    exact ⟨e.2, hvalues e he⟩
  rw [render_eq (j.outside_documentTemplate script) hbound]
  refine congrArg Except.ok ?_
  rw [← String.toList_inj, writtenDocument, String.toList_ofList, String.toList_join,
    documentTemplate, templateLines_eq, List.map_cons, Segment.render,
    DocumentLine.fill_lines j.isClean_documentLines hvalues, List.flatMap_cons,
    String.toList_ofList, List.map_map, List.flatMap_map]
  rfl

/-- There is a text for every stage and script: its written lines and its blocks. -/
theorem documentText_eq (j : ResolvedJob) (script : String) :
    j.documentText script = .ok (j.writtenDocument script) := by
  obtain ⟨b, hb, hvalues, -⟩ := j.exists_documentBindings
  rw [documentText, hb]
  exact render_documentTemplate hvalues script

/-- A document is handed over as it is written if it stands for a value. -/
lemma document_eq_ok_iff {j : ResolvedJob} {script text : String} :
    j.document script = .ok text ↔
      text = j.writtenDocument script ∧ ∃ v, Value.ofText text = .ok v := by
  unfold document
  simp only [documentText_eq, bind, Except.bind, pure, Except.pure]
  cases h : Value.ofText (j.writtenDocument script) with
  | ok v =>
    dsimp only
    rw [Except.ok.injEq]
    constructor
    · intro heq
      exact ⟨heq.symm, v, heq ▸ h⟩
    · rintro ⟨heq, -⟩
      exact heq.symm
  | error fault =>
    simp only [reduceCtorEq, false_iff, not_and]
    rintro heq ⟨v, hv⟩
    rw [heq, h] at hv
    cases hv

end ResolvedJob

end WorkflowOperator
