import WorkflowOperator.Job.Script
import WorkflowOperator.Proofs.Template.Insertion
import WorkflowOperator.Proofs.Template.Joining
import WorkflowOperator.Proofs.Workflow.Rules

/-!
# The values of a stage's script

Which names a stage's script may use and which values they have. The values are bound if those that come
from outside are shell words, and none of them then brings a pair of opening braces to where it is put in:
the only opening brace among them stands behind the dollar sign of the job's identifier.
-/

namespace WorkflowOperator

open Template Text

namespace Template.Bindings

variable {b b' : Bindings} {name value : String}

lemma insertShell_unless_empty_eq_ok_iff :
    (if value.isEmpty then pure b else b.insertShell name value) = .ok b' ↔
      isShellWord value = true ∧
        b' = ⟨(Fragment.when (!value.isEmpty) [(name, value)]).foldl
          (fun m e => m.insert e.1 e.2) b.values⟩ := by
  cases hempty : value.isEmpty with
  | true =>
    rw [if_pos rfl, isShellWord_of_isEmpty hempty]
    exact (Except.ok.injEq _ _).to_iff.trans (eq_comm.trans (and_iff_right rfl).symm)
  | false => exact insertShell_eq_ok_iff

end Template.Bindings

lemma Fragment.mem_when_iff {α : Type} {b : Bool} {l : List α} {a : α} :
    a ∈ Fragment.when b l ↔ b = true ∧ a ∈ l := by
  cases b <;> simp [Fragment.when]

namespace ResolvedJob

/-- The names that a stage's script may use, with their values. -/
def scriptValues (tools : ToolSource) (j : ResolvedJob) : List (String × String) :=
  [("jobid", Bindings.variableOr jobidVariable j.jobid),
    ("outpath", j.step.workdir),
    ("registry", j.registry.host),
    ("cores_per_task", toString j.step.config.coresPerTask.toNat),
    ("nodes", toString j.step.config.nodes.toNat)] ++
  (j.step.config.tasks.map fun n => ("tasks", toString n.toNat)).toList ++
  [("arch", j.step.arch),
    ("tool_version", tools.version),
    ("tool_base_url", tools.baseUrl),
    ("plain_http_flag", plainHttpFlag j.registry.plainHttp)] ++
  Fragment.when (!j.registry.pull.isEmpty) [("pull_tag", j.registry.pull)] ++
  Fragment.when (!j.registry.push.isEmpty) [("push_tag", j.registry.push)]

/-- The values of a stage's script that come from outside. -/
def givenWords (tools : ToolSource) (j : ResolvedJob) : List String :=
  [j.jobid, j.step.workdir, j.registry.host, j.step.arch, tools.version, tools.baseUrl,
    j.registry.pull, j.registry.push]

variable {tools : ToolSource} {j : ResolvedJob}

lemma scriptBindings_eq_ok_iff {b : Bindings} : j.scriptBindings tools = .ok b ↔
    (∀ s ∈ j.givenWords tools, isShellWord s = true) ∧ b = ⟨.ofList (j.scriptValues tools)⟩ := by
  have hvariable : ∀ {b b' : Bindings} {name value : String},
      b.insertVariable name jobidVariable value = .ok b' ↔ isShellWord value = true ∧
        b' = ⟨b.values.insert name (Bindings.variableOr jobidVariable value)⟩ :=
    Bindings.insertVariable_eq_ok_iff.trans (and_iff_right (by decide))
  have hcount : ∀ {b : Bindings} {name : String} (n : Nat),
      b.insert name (toString n) = .ok ⟨b.values.insert name (toString n)⟩ :=
    fun n => Bindings.insert_eq (Bindings.breaksLine_of_isShellWord (isShellWord_toString n))
  have hflag : ∀ {b : Bindings} {name : String} (plain : Bool),
      b.insert name (plainHttpFlag plain) = .ok ⟨b.values.insert name (plainHttpFlag plain)⟩ :=
    fun plain => Bindings.insert_eq (by cases plain <;> decide)
  have hpure : ∀ {b b' : Bindings}, (pure b : Except Fault Bindings) = .ok b' ↔ b' = b :=
    fun {_ _} => (Except.ok.injEq _ _).to_iff.trans eq_comm
  have hpull : j.registry.pull.isEmpty = true → isShellWord j.registry.pull = true :=
    isShellWord_of_isEmpty
  simp only [givenWords, scriptValues, SortedMap.ofList, List.foldl_append, List.forall_mem_cons,
    List.not_mem_nil, false_imp_iff, implies_true, and_true]
  unfold scriptBindings
  -- without a number of tasks, or without a tag to pull, a step is left out
  cases j.step.config.tasks <;> cases hempty : j.registry.pull.isEmpty
  all_goals
    simp only [bind_eq_ok_iff, hvariable, Bindings.insertShell_eq_ok_iff, hcount, hflag, hpure,
      Bindings.insertShell_unless_empty_eq_ok_iff, Except.ok.injEq, and_assoc, exists_and_left,
      exists_eq_left, exists_eq_left', if_true, Bool.false_eq_true, if_false, hpull, hempty, true_and]
    rfl

lemma nodup_keys_scriptValues : ((j.scriptValues tools).map Prod.fst).Nodup := by
  rw [scriptValues]
  cases j.step.config.tasks <;> cases j.registry.pull.isEmpty <;>
    cases j.registry.push.isEmpty <;> simp [Fragment.when]

lemma mem_of_scriptBindings {b : Bindings} (h : j.scriptBindings tools = .ok b) {name value : String}
    (hvalue : b.get? name = some value) : (name, value) ∈ j.scriptValues tools := by
  obtain ⟨-, rfl⟩ := scriptBindings_eq_ok_iff.mp h
  exact SortedMap.mem_ofList ((SortedMap.get?_eq_some_iff _ _ _).mp hvalue)

lemma isSealed_of_isShellWord {s : String} (h : isShellWord s = true) : IsSealed s.toList :=
  isSealed_of_not_mem (not_mem_of_isShellWord h (by decide))

/-- The brace of a shell variable stands behind a dollar sign and is closed at the end. -/
lemma isSealed_variableOr {var value : String} (hvar : isShellWord var = true)
    (h : isShellWord value = true) : IsSealed (Bindings.variableOr var value).toList := by
  have hvar : '{' ∉ var.toList := not_mem_of_isShellWord hvar (by decide)
  have hvalue : '{' ∉ value.toList := not_mem_of_isShellWord h (by decide)
  have htext : (Bindings.variableOr var value).toList =
      '$' :: '{' :: (var.toList ++ [':', '-'] ++ value.toList ++ ['}']) := by
    simp [Bindings.variableOr]
  have hinside : '{' ∉ var.toList ++ [':', '-'] ++ value.toList ++ ['}'] := by
    simp [hvar, hvalue]
  rw [htext]
  refine ⟨by simp, ?_, ?_⟩
  · rw [← List.cons_append, ← List.cons_append, List.getLast?_concat]
    decide
  · rw [hasPair_cons_iff, hasPair_cons_iff, not_or, not_or]
    refine ⟨fun hdollar => absurd hdollar.1 (by decide), ?_, ?_⟩
    · exact fun hpair => hinside (List.mem_of_head? hpair.2)
    · exact (isSealed_of_not_mem hinside).pair

/-- The values are shell words but for the identifier of the job, which stands behind the name of an
environment variable. -/
lemma mem_scriptValues_cases (hwords : ∀ s ∈ j.givenWords tools, isShellWord s = true) :
    ∀ e ∈ j.scriptValues tools, e = ("jobid", Bindings.variableOr jobidVariable j.jobid) ∨
      isShellWord e.2 = true := by
  simp only [givenWords, List.forall_mem_cons] at hwords
  obtain ⟨-, hworkdir, hhost, harch, hversion, hbaseUrl, hpull, hpush, -⟩ := hwords
  have hflag : isShellWord (plainHttpFlag j.registry.plainHttp) = true := by
    cases j.registry.plainHttp <;> decide
  simp only [scriptValues, List.forall_mem_append, List.forall_mem_cons]
  refine ⟨⟨⟨⟨⟨Or.inl trivial, Or.inr hworkdir, Or.inr hhost, Or.inr (isShellWord_toString _),
    Or.inr (isShellWord_toString _), by simp⟩, ?tasks⟩, Or.inr harch, Or.inr hversion,
    Or.inr hbaseUrl, Or.inr hflag, by simp⟩, ?pull⟩, ?push⟩
  case tasks =>
    intro e he
    rw [Option.mem_toList, Option.map_eq_some_iff] at he
    obtain ⟨n, -, rfl⟩ := he
    exact Or.inr (isShellWord_toString _)
  case pull =>
    intro e he
    rw [Fragment.mem_when_iff, List.mem_singleton] at he
    exact Or.inr (he.2 ▸ hpull)
  case push =>
    intro e he
    rw [Fragment.mem_when_iff, List.mem_singleton] at he
    exact Or.inr (he.2 ▸ hpush)

lemma isSealed_of_mem_scriptValues (hwords : ∀ s ∈ j.givenWords tools, isShellWord s = true) :
    ∀ e ∈ j.scriptValues tools, IsSealed e.2.toList := by
  intro e he
  rcases mem_scriptValues_cases hwords e he with rfl | hword
  · exact isSealed_variableOr (by decide) (hwords _ (by simp [givenWords]))
  · exact isSealed_of_isShellWord hword

end ResolvedJob

end WorkflowOperator
