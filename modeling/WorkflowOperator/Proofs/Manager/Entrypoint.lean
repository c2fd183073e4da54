import WorkflowOperator.Manager.Entrypoint
import WorkflowOperator.Proofs.Job.ScriptValues
import WorkflowOperator.Proofs.Template.Lines

/-!
# What is put into scripts

The stages' scripts and the manager's entrypoint are made if all that is put into them is shell words.
The two exceptions are written by the library or by whoever sets the operator up: the reference to an
environment variable around a job's identifier, and the command of the manager, which only may not break
a line.
-/

namespace WorkflowOperator

open Template Text

namespace Workflow

variable {layout : ManagerLayout} {w : Workflow} {b : Bindings} {out : String}

/-! ### The values of the entrypoint -/

/-- The names that the entrypoint uses, with their values. -/
def entrypointValues (layout : ManagerLayout) (w : Workflow) : List (String × String) :=
  [("mount_path", layout.mountPath),
    ("workflow_name", w.name),
    ("namespace", w.inNamespace),
    ("registry", w.registryAddress),
    ("stages", " ".intercalate w.spec.stageNames),
    ("manager_command", layout.command),
    ("workflow_file", workflowFileName),
    ("plain_http_flag", plainHttpFlag w.spec.registry.usesPlainHttp)]

/-- What the entrypoint asks of the values that come from outside. -/
structure HasEntrypointValues (layout : ManagerLayout) (w : Workflow) : Prop where
  mountPath : isShellWord layout.mountPath = true
  name : isShellWord w.name = true
  inNamespace : isShellWord w.inNamespace = true
  registryAddress : isShellWord w.registryAddress = true
  stageNames : ∀ s ∈ w.spec.stageNames, isShellWord s = true
  command : ∀ ch ∈ layout.command.toList, ch ≠ '\n' ∧ ch ≠ '\r'

/-- In a valid workflow only the layout can have what the entrypoint refuses. -/
lemma hasEntrypointValues_of_validate {c : Config} {desired : Workflow}
    (h : desired.validate c = .ok w) (hmountPath : isShellWord layout.mountPath = true)
    (hcommand : ∀ ch ∈ layout.command.toList, ch ≠ '\n' ∧ ch ≠ '\r') :
    w.HasEntrypointValues layout :=
  ⟨hmountPath, isShellWord_name h, isShellWord_inNamespace h, isShellWord_registryAddress h,
    isShellWord_of_mem_stageNames h, hcommand⟩

lemma hasEntrypointValues_standard {desired : Workflow} (h : desired.validate .standard = .ok w) :
    w.HasEntrypointValues Config.standard.manager :=
  hasEntrypointValues_of_validate h (by decide) (Bindings.breaksLine_eq_false_iff.mp (by decide))

lemma entrypointBindings_eq_ok_iff : w.entrypointBindings layout = .ok b ↔
    w.HasEntrypointValues layout ∧ b = ⟨.ofList (w.entrypointValues layout)⟩ := by
  have hfile : Bindings.breaksLine workflowFileName = false := by decide
  have hflag : Bindings.breaksLine (plainHttpFlag w.spec.registry.usesPlainHttp) = false := by
    cases w.spec.registry.usesPlainHttp <;> decide
  simp only [entrypointBindings, bind_eq_ok_iff, Bindings.insertShell_eq_ok_iff,
    Bindings.insertShellWords_eq_ok_iff, Bindings.insert_eq_ok_iff, hfile, hflag, true_and,
    and_assoc, exists_and_left, exists_eq_left, Bindings.breaksLine_eq_false_iff]
  constructor
  · rintro ⟨hmountPath, hname, hnamespace, hregistry, hstages, hcommand, rfl⟩
    exact ⟨⟨hmountPath, hname, hnamespace, hregistry, hstages, hcommand⟩, rfl⟩
  · rintro ⟨⟨hmountPath, hname, hnamespace, hregistry, hstages, hcommand⟩, rfl⟩
    exact ⟨hmountPath, hname, hnamespace, hregistry, hstages, hcommand, rfl⟩

/-! ### The text of the entrypoint -/

def filledEntrypointLines (layout : ManagerLayout) (w : Workflow) : List String :=
  ["#!/bin/bash",
    "",
    "cd \"" ++ layout.mountPath ++ "\"",
    "",
    "echo \">> workflow     = " ++ w.name ++ "\"",
    "echo \">> namespace    = " ++ w.inNamespace ++ "\"",
    "echo \">> registry     = " ++ w.registryAddress ++ "\"",
    "echo \">> stages       = " ++ " ".intercalate w.spec.stageNames ++ "\"",
    "ls",
    "",
    layout.command ++ " start --config-dir \"" ++ layout.mountPath ++ "\" --registry \"" ++
      w.registryAddress ++ "\" " ++ plainHttpFlag w.spec.registry.usesPlainHttp ++ " " ++
        workflowFileName] ++
  Fragment.when w.spec.manager.interactive keepAliveLines

lemma nodup_keys_entrypointValues : ((w.entrypointValues layout).map Prod.fst).Nodup := by
  simp [entrypointValues]

/-- The lines of an interactive manager's entrypoint are the most there can be. -/
lemma mem_entrypointLines {on : Bool} {l : String}
    (h : l ∈ entrypointLines ++ Fragment.when on keepAliveLines) :
    l ∈ entrypointLines ++ keepAliveLines := by
  simp only [List.mem_append, Fragment.mem_when_iff] at h ⊢
  tauto

lemma not_isMalformed_of_mem_entrypoint {on : Bool} :
    ∀ l ∈ entrypointLines ++ Fragment.when on keepAliveLines, ¬ IsMalformed l := by
  have hall : ∀ l ∈ entrypointLines ++ keepAliveLines, ¬ IsMalformed l := by decide +kernel
  exact fun l hl => hall l (mem_entrypointLines hl)

lemma bound_of_mem_entrypoint {on : Bool} : ∀ l ∈ entrypointLines ++ Fragment.when on keepAliveLines,
    ∀ name ∈ placeholderNames l.toList, name ∈ (w.entrypointValues layout).map Prod.fst := by
  have hkeys : (w.entrypointValues layout).map Prod.fst = ["mount_path", "workflow_name",
    "namespace", "registry", "stages", "manager_command", "workflow_file", "plain_http_flag"] := rfl
  have hall : ∀ l ∈ entrypointLines ++ keepAliveLines, ∀ name ∈ placeholderNames l.toList,
      name ∈ ["mount_path", "workflow_name", "namespace", "registry", "stages", "manager_command",
        "workflow_file", "plain_http_flag"] := by decide +kernel
  rw [hkeys]
  exact fun l hl => hall l (mem_entrypointLines hl)

lemma map_fill_entrypointLines (hb : b = ⟨.ofList (w.entrypointValues layout)⟩) :
    (entrypointLines ++ Fragment.when w.spec.manager.interactive keepAliveLines).map (fill b) =
      w.filledEntrypointLines layout := by
  have hvalue : ∀ {name value : String}, (name, value) ∈ w.entrypointValues layout →
      b.textOf name = value := by
    subst hb
    exact fun h => Bindings.textOf_eq ((SortedMap.get?_ofList nodup_keys_entrypointValues).mpr h)
  have hmountPath : b.textOf "mount_path" = layout.mountPath := hvalue (by simp [entrypointValues])
  have hname : b.textOf "workflow_name" = w.name := hvalue (by simp [entrypointValues])
  have hnamespace : b.textOf "namespace" = w.inNamespace := hvalue (by simp [entrypointValues])
  have hregistry : b.textOf "registry" = w.registryAddress := hvalue (by simp [entrypointValues])
  have hstages : b.textOf "stages" = " ".intercalate w.spec.stageNames :=
    hvalue (by simp [entrypointValues])
  have hcommand : b.textOf "manager_command" = layout.command := hvalue (by simp [entrypointValues])
  have hfile : b.textOf "workflow_file" = workflowFileName := hvalue (by simp [entrypointValues])
  have hflag : b.textOf "plain_http_flag" = plainHttpFlag w.spec.registry.usesPlainHttp :=
    hvalue (by simp [entrypointValues])
  have hkept : (Fragment.when w.spec.manager.interactive keepAliveLines).map (fill b) =
      Fragment.when w.spec.manager.interactive keepAliveLines :=
    map_fill_plain (by cases w.spec.manager.interactive <;> decide)
  rw [List.map_append, hkept, filledEntrypointLines]
  simp only [entrypointLines, List.map_cons, List.map_nil]
  simp (disch := decide +kernel) only [String.append_assoc, fill_plain_append, fill_slot_append,
    fill_slot, fill_plain, hmountPath, hname, hnamespace, hregistry, hstages, hcommand, hfile, hflag]

lemma entrypoint_eq_ok_iff : w.entrypoint layout = .ok out ↔
    w.HasEntrypointValues layout ∧ out = asLines (w.filledEntrypointLines layout) := by
  have hwell := @not_isMalformed_of_mem_entrypoint w.spec.manager.interactive
  have hrender : ∀ b : Bindings, b = ⟨.ofList (w.entrypointValues layout)⟩ →
      (w.entrypointTemplate.render b = .ok out ↔ out = asLines (w.filledEntrypointLines layout)) := by
    intro b hb
    rw [entrypointTemplate, render_ofText_ok_iff, fill_asLines hwell, map_fill_entrypointLines hb,
      and_iff_right (not_isMalformed_asLines hwell)]
    refine and_iff_right fun name hname hnone => ?_
    obtain ⟨l, hl, hmem⟩ := (mem_placeholderNames_asLines hwell).mp hname
    subst hb
    exact SortedMap.get?_ofList_eq_none_iff.mp hnone (bound_of_mem_entrypoint l hl name hmem)
  simp only [entrypoint, bind_eq_ok_iff, entrypointBindings_eq_ok_iff]
  constructor
  · rintro ⟨b, ⟨hvalues, hb⟩, hout⟩
    exact ⟨hvalues, (hrender b hb).mp hout⟩
  · rintro ⟨hvalues, hout⟩
    exact ⟨_, ⟨hvalues, rfl⟩, (hrender _ rfl).mpr hout⟩

/-! ### Values of scripts -/

/-- The values of a stage's script are shell words but for the identifier of the job, which is asked of
the environment with the workflow's own as the fallback. -/
structure StageTakesWords (w : Workflow) (b : Bindings) : Prop where
  jobid : b.get? "jobid" =
    some ("$\x7bJOBID:-" ++ (w.spec.completion.jobNamePrefix ++ w.name) ++ "\x7d")
  words : ∀ name value, b.get? name = some value → name ≠ "jobid" → isShellWord value = true

/-- The values of the entrypoint are shell words but for the names of the stages, which are shell words
joined by single spaces, and the command of the manager. -/
structure EntrypointTakesWords (layout : ManagerLayout) (w : Workflow) (b : Bindings) : Prop where
  stages : b.get? "stages" = some (" ".intercalate w.spec.stageNames) ∧
    ∀ s ∈ w.spec.stageNames, isShellWord s = true
  command : b.get? "manager_command" = some layout.command
  words : ∀ name value, b.get? name = some value → name ≠ "stages" → name ≠ "manager_command" →
    isShellWord value = true

lemma stageTakesWords {c : Config} {j : JobStep}
    (hb : (w.resolve c j).scriptBindings c.tools = .ok b) : w.StageTakesWords b := by
  have hwords := (ResolvedJob.scriptBindings_eq_ok_iff.mp hb).1
  refine ⟨?_, fun name value hvalue hne => ?_⟩
  · obtain ⟨-, rfl⟩ := ResolvedJob.scriptBindings_eq_ok_iff.mp hb
    refine (SortedMap.get?_ofList ResolvedJob.nodup_keys_scriptValues).mpr ?_
    exact List.mem_cons_self
  · rcases ResolvedJob.mem_scriptValues_cases hwords _ (ResolvedJob.mem_of_scriptBindings hb hvalue)
      with hjobid | hword
    · exact absurd (congrArg Prod.fst hjobid) hne
    · exact hword

lemma entrypointTakesWords (hb : w.entrypointBindings layout = .ok b) :
    w.EntrypointTakesWords layout b := by
  obtain ⟨hvalues, rfl⟩ := entrypointBindings_eq_ok_iff.mp hb
  have hget : ∀ {name value : String}, (⟨.ofList (w.entrypointValues layout)⟩ : Bindings).get? name =
      some value ↔ (name, value) ∈ w.entrypointValues layout :=
    SortedMap.get?_ofList nodup_keys_entrypointValues
  refine ⟨⟨hget.mpr (by simp [entrypointValues]), hvalues.stageNames⟩,
    hget.mpr (by simp [entrypointValues]), fun name value hvalue hstages hcommand => ?_⟩
  have hfile : isShellWord workflowFileName = true := by decide
  have hflag : isShellWord (plainHttpFlag w.spec.registry.usesPlainHttp) = true := by
    cases w.spec.registry.usesPlainHttp <;> decide
  have hwords : ∀ e ∈ w.entrypointValues layout, e.1 ≠ "stages" → e.1 ≠ "manager_command" →
      isShellWord e.2 = true := by
    simp [entrypointValues, hvalues.mountPath, hvalues.name, hvalues.inNamespace,
      hvalues.registryAddress, hfile, hflag]
  exact hwords _ (hget.mp hvalue) hstages hcommand

/-- Nothing but shell words is put into a stage's script and into the entrypoint, and that these values
are shell words is all that is asked for. -/
theorem only_shell_words_are_put_in (c : Config) (w : Workflow) (j : JobStep) :
    ((∃ b, (w.resolve c j).scriptBindings c.tools = .ok b) ↔
      isShellWord (w.spec.completion.jobNamePrefix ++ w.name) = true ∧
      isShellWord (w.resolve c j).step.workdir = true ∧
      isShellWord (w.resolve c j).registry.host = true ∧
      isShellWord (w.resolve c j).step.arch = true ∧
      isShellWord c.tools.version = true ∧ isShellWord c.tools.baseUrl = true ∧
      ((w.resolve c j).registry.pull ≠ "" →
        isShellWord (w.resolve c j).registry.pull = true) ∧
      ((w.resolve c j).registry.push ≠ "" →
        isShellWord (w.resolve c j).registry.push = true)) ∧
    (∀ b, (w.resolve c j).scriptBindings c.tools = .ok b → w.StageTakesWords b) ∧
    ((∃ out, w.entrypoint c.manager = .ok out) ↔ w.HasEntrypointValues c.manager) ∧
    ∀ out, w.entrypoint c.manager = .ok out →
      ∃ b, w.entrypointBindings c.manager = .ok b ∧ w.EntrypointTakesWords c.manager b ∧
        w.entrypointTemplate.render b = .ok out := by
  refine ⟨?_, fun b => stageTakesWords, ?_, fun out hout => ?_⟩
  · have htag : ∀ s : String, (s ≠ "" → isShellWord s = true) ↔ isShellWord s = true := by
      intro s
      refine ⟨fun h => ?_, fun h _ => h⟩
      by_cases hempty : s = ""
      · subst hempty
        rfl
      · exact h hempty
    simp only [htag, ResolvedJob.scriptBindings_eq_ok_iff, exists_and_left, exists_eq, and_true,
      ResolvedJob.givenWords, List.forall_mem_cons, List.not_mem_nil, false_imp_iff, implies_true]
    exact Iff.rfl
  · simp only [entrypoint_eq_ok_iff, exists_and_left, exists_eq, and_true]
  · obtain ⟨b, hb, hrender⟩ := bind_eq_ok_iff.mp hout
    exact ⟨b, hb, entrypointTakesWords hb, hrender⟩

end Workflow

end WorkflowOperator
