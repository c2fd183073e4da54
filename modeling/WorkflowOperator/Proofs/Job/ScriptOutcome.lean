import WorkflowOperator.Proofs.Job.Composition

/-!
# When a stage has a script

A stage with commands gets its script unless its own commands have stray braces or a placeholder that is
not offered to them. Nothing else can go wrong with a valid workflow and a configuration of shell words:
all values that such a workflow brings are shell words themselves. The script that a stage gets has no
pair of opening braces.
-/

namespace WorkflowOperator

open Template Text

namespace ResolvedJob

variable {tools : ToolSource} {j : ResolvedJob}

lemma script_eq_render (h : j.step.script ≠ "")
    (hwords : ∀ s ∈ j.givenWords tools, isShellWord s = true) : j.script tools =
      (ofText (Fragment.compose j.fragments)).render ⟨.ofList (j.scriptValues tools)⟩ := by
  rw [script_eq tools h, scriptBindings_eq_ok_iff.mpr ⟨hwords, rfl⟩]
  rfl

lemma script_cases (h : j.step.script ≠ "")
    (hwords : ∀ s ∈ j.givenWords tools, isShellWord s = true) :
    ((ofText j.step.script).HasStrayBraces ∧
      ∃ context, j.script tools = .error (.malformed context)) ∨
    (¬ (ofText j.step.script).HasStrayBraces ∧
      ∃ names, j.script tools = .error (.unresolved names) ∧ names ≠ [] ∧ names.Pairwise (· < ·) ∧
        ∀ name, name ∈ names ↔ (ofText j.step.script).Mentions name ∧
          name ∉ (j.scriptValues tools).map Prod.fst) ∨
    (¬ (ofText j.step.script).HasStrayBraces ∧
      (∀ name, (ofText j.step.script).Mentions name → name ∈ (j.scriptValues tools).map Prod.fst) ∧
        ∃ out, j.script tools = .ok out) := by
  let t : Template := ofText (Fragment.compose j.fragments)
  let b : Bindings := ⟨.ofList (j.scriptValues tools)⟩
  have hwell : t.IsWellFormed ↔ ¬ (ofText j.step.script).HasStrayBraces := by
    rw [hasStrayBraces_ofText_iff, ← isMalformed_compose_iff h, ← hasStrayBraces_ofText_iff,
      hasStrayBraces_iff, not_not]
  have hunresolved : ∀ name, name ∈ t.unresolved b ↔
      (ofText j.step.script).Mentions name ∧ name ∉ (j.scriptValues tools).map Prod.fst := by
    intro name
    rw [mem_unresolved_iff, mentions_ofText_iff, mentions_ofText_iff,
      mem_placeholderNames_compose_iff h, Bindings.get?, SortedMap.get?_ofList_eq_none_iff]
    -- the lines around the commands bring no name without a value
    refine and_congr_left fun hname => or_iff_left ?_
    rintro ⟨l, hl, hmem⟩
    exact hname (mem_scriptValues_of_mem_lines hl hmem)
  rw [script_eq_render h hwords, ← hwell]
  rcases t.render_cases b with ⟨hstray, hrender⟩ | ⟨hclean, hne, hrender⟩ | ⟨hclean, hnil, hrender⟩
  · exact Or.inl ⟨not_not.mp (mt hwell.mpr hstray), hrender⟩
  · exact Or.inr (Or.inl ⟨hclean, _, hrender, hne, t.pairwise_placeholders.filter _, hunresolved⟩)
  · refine Or.inr (Or.inr ⟨hclean, fun name hmentions => ?_, _, hrender⟩)
    by_contra hname
    have hmem := (hunresolved name).mpr ⟨hmentions, hname⟩
    rw [hnil] at hmem
    cases hmem

lemma exists_script_iff (h : j.step.script ≠ "")
    (hwords : ∀ s ∈ j.givenWords tools, isShellWord s = true) :
    (∃ out, j.script tools = .ok out) ↔ ¬ (ofText j.step.script).HasStrayBraces ∧
      ∀ name, (ofText j.step.script).Mentions name → name ∈ (j.scriptValues tools).map Prod.fst := by
  rcases script_cases h hwords with ⟨hstray, context, hscript⟩ |
    ⟨-, names, hscript, hne, -, hnames⟩ | ⟨hclean, hknown, hscript⟩
  · simp [hscript, hstray]
  · obtain ⟨name, hname⟩ := List.exists_mem_of_ne_nil _ hne
    obtain ⟨hmentions, hunknown⟩ := (hnames name).mp hname
    simp only [hscript, reduceCtorEq, exists_false, false_iff, not_and, not_forall]
    exact fun _ => ⟨name, hmentions, hunknown⟩
  · exact iff_of_true hscript ⟨hclean, hknown⟩

end ResolvedJob

/-! ### Scripts without pairs of braces -/

/-- A stage's script has no two adjoining opening braces: neither those of a placeholder, nor any that
meet where a placeholder stood whose value is empty. -/
theorem no_pair_in_script (w : Workflow) (c : Config) (j : JobStep) {out : String}
    (h : (w.resolve c j).script c.tools = .ok out) : ¬ HasPair out.toList := by
  unfold ResolvedJob.script at h
  split at h
  next =>
    cases h
    exact not_hasPair_nil
  next =>
    obtain ⟨b, hb, hrender⟩ := bind_eq_ok_iff.mp h
    have hwords := (ResolvedJob.scriptBindings_eq_ok_iff.mp hb).1
    refine not_hasPair_of_render (fun name value hvalue => ?_) hrender
    exact ResolvedJob.isSealed_of_mem_scriptValues hwords _
      (ResolvedJob.mem_of_scriptBindings hb hvalue)

/-- A stage whose script has a brace on either side of an option that is left out. -/
def bracedStep : JobStep :=
  { JobStep.running "train" ("echo \x7b" ++ slot "plain_http_flag" ++ "x\x7b\n") with
    registry := ⟨"model", "", "", some false⟩ }

theorem no_pair_in_braced_script : ∃ out, ((Workflow.stageless "training" "lab" "1f0a").resolve
    .standard bracedStep).script Config.standard.tools = .ok out ∧ ¬ HasPair out.toList := by
  have hfilled : ∃ out, ((Workflow.stageless "training" "lab" "1f0a").resolve
      .standard bracedStep).script Config.standard.tools = .ok out := by
    refine (ResolvedJob.exists_script_iff (by decide) (by decide +kernel)).mpr ⟨?_, fun name hname => ?_⟩
    · rw [hasStrayBraces_ofText_iff]
      decide +kernel
    · rw [mentions_ofText_iff] at hname
      revert name
      decide +kernel
  exact hfilled.imp fun _ hout => ⟨hout, no_pair_in_script _ .standard bracedStep hout⟩

/-! ### Stages of valid workflows -/

/-- The names that the commands of a stage may use as placeholders. -/
def JobStep.offered (j : JobStep) : List String :=
  ["jobid", "outpath", "registry", "cores_per_task", "nodes"] ++
  Fragment.when j.config.tasks.isSome ["tasks"] ++
  ["arch", "tool_version", "tool_base_url", "plain_http_flag"] ++
  Fragment.when (!j.registry.pull.isEmpty) ["pull_tag"] ++
  Fragment.when (!j.registry.push.isEmpty) ["push_tag"]

namespace Workflow

variable {c c' : Config} {desired w : Workflow} {j : JobStep}

lemma tags_resolveRegistry (w : Workflow) (j : JobStep) :
    (w.resolveRegistry j).pull = j.registry.pull ∧ (w.resolveRegistry j).push = j.registry.push := by
  unfold resolveRegistry
  split
  next => exact ⟨rfl, rfl⟩
  next hnone =>
    simp only [JobStep.hasRegistry, Bool.not_eq_true', Bool.not_eq_false, Bool.and_eq_true,
      String.isEmpty_iff] at hnone
    exact ⟨hnone.1.2.symm, hnone.2.symm⟩

lemma keys_scriptValues_resolve (tools : ToolSource) :
    ((w.resolve c j).scriptValues tools).map Prod.fst = j.offered := by
  have hpull : (w.resolve c j).registry.pull = j.registry.pull := (tags_resolveRegistry w j).1
  have hpush : (w.resolve c j).registry.push = j.registry.push := (tags_resolveRegistry w j).2
  have htasks : (w.resolve c j).step.config.tasks = j.config.tasks := rfl
  rw [ResolvedJob.scriptValues, JobStep.offered, hpull, hpush, htasks]
  cases j.config.tasks <;> cases j.registry.pull.isEmpty <;> cases j.registry.push.isEmpty <;> rfl

lemma isShellWord_of_mem_givenWords (hvalid : desired.validate c' = .ok w)
    (hworkdir : isShellWord c.jobs.workdir = true) (harch : isShellWord c.jobs.arch = true)
    (hversion : isShellWord c.tools.version = true) (hbaseUrl : isShellWord c.tools.baseUrl = true)
    (hj : j ∈ w.spec.jobs) : ∀ s ∈ (w.resolve c j).givenWords c.tools, isShellWord s = true := by
  obtain ⟨harch', hworkdir', hhost, hpull, hpush⟩ := isShellWord_of_mem_jobs hvalid hj
  have hregistry : isShellWord (w.resolveRegistry j).host = true := by
    unfold resolveRegistry
    split
    · exact isShellWord_textOr hhost (isShellWord_registryAddress hvalid)
    · exact isShellWord_registryAddress hvalid
  have htags := tags_resolveRegistry w j
  simp only [ResolvedJob.givenWords, resolve, JobStep.withDefaults, htags, List.forall_mem_cons]
  exact ⟨isShellWord_jobid hvalid, isShellWord_textOr hworkdir' hworkdir, hregistry,
    isShellWord_textOr harch' harch, hversion, hbaseUrl, hpull, hpush, by simp⟩

/-- Only the commands of a stage can keep it from its script: they have stray braces, or they have
placeholders that are not offered to them and all of which are named in the error. -/
theorem only_commands_break_a_stage (hvalid : desired.validate c' = .ok w)
    (hworkdir : isShellWord c.jobs.workdir = true) (harch : isShellWord c.jobs.arch = true)
    (hversion : isShellWord c.tools.version = true) (hbaseUrl : isShellWord c.tools.baseUrl = true)
    (hj : j ∈ w.spec.jobs) (hcommands : j.script ≠ "") :
    ((∃ out, (w.resolve c j).script c.tools = .ok out) ↔
      ¬ (ofText j.script).HasStrayBraces ∧ ∀ name, (ofText j.script).Mentions name →
        name ∈ j.offered) ∧
    ∀ fault, (w.resolve c j).script c.tools = .error fault →
      fault.toError.code = "TEMPLATE_ERROR" ∧
      (((ofText j.script).HasStrayBraces ∧ ∃ context, fault = .malformed context) ∨
        (¬ (ofText j.script).HasStrayBraces ∧ ∃ names, fault = .unresolved names ∧
          names.Pairwise (· < ·) ∧
          ∀ name, name ∈ names ↔ (ofText j.script).Mentions name ∧ name ∉ j.offered)) := by
  have hwords := isShellWord_of_mem_givenWords hvalid hworkdir harch hversion hbaseUrl hj
  have hresolved : (w.resolve c j).step.script ≠ "" := hcommands
  refine ⟨?_, fun fault hfault => ⟨rfl, ?_⟩⟩
  · rw [ResolvedJob.exists_script_iff hresolved hwords, keys_scriptValues_resolve]
    exact Iff.rfl
  · have hcases := ResolvedJob.script_cases hresolved hwords
    rw [keys_scriptValues_resolve, hfault] at hcases
    rcases hcases with ⟨hstray, context, hmalformed⟩ |
      ⟨hclean, names, hunresolved, -, hsorted, hnames⟩ | ⟨-, -, out, hok⟩
    · exact Or.inl ⟨hstray, context, Except.error.inj hmalformed⟩
    · exact Or.inr ⟨hclean, names, Except.error.inj hunresolved, hsorted, hnames⟩
    · cases hok

def pullingStep : JobStep :=
  { JobStep.running "train" ("echo " ++ slot "jobid" ++ ":" ++ slot "pull_tag") with
    registry := ⟨"", "model", "", none⟩ }

/-- A stage that asks for a tag although it pulls none. -/
def strayStep : JobStep := JobStep.running "test" ("echo " ++ slot "pull_tag")

/-- A workflow of a stage that gets its script and one that does not. -/
def pulling : Workflow := (stageless "training" "lab" "1f0a").withStages [pullingStep, strayStep]

theorem only_the_stray_step_breaks :
    pulling.validate .standard = .ok (pulling.withDefaults .standard) ∧
    (∃ out, ((pulling.withDefaults .standard).resolve .standard pullingStep).script
      Config.standard.tools = .ok out) ∧
    ¬ ∃ out, ((pulling.withDefaults .standard).resolve .standard strayStep).script
      Config.standard.tools = .ok out := by
  have hvalid : pulling.validate .standard = .ok (pulling.withDefaults .standard) :=
    (validate_eq_ok_iff _ _ _).mpr ⟨rfl, by decide +kernel⟩
  have hpulling : pullingStep ∈ (pulling.withDefaults .standard).spec.jobs := List.mem_cons_self
  have hstray : strayStep ∈ (pulling.withDefaults .standard).spec.jobs :=
    List.mem_cons_of_mem _ List.mem_cons_self
  have hoffered : ∀ name ∈ placeholderNames pullingStep.script.toList, name ∈ pullingStep.offered := by
    decide +kernel
  have hunoffered : "pull_tag" ∈ placeholderNames strayStep.script.toList ∧
      "pull_tag" ∉ strayStep.offered := by decide +kernel
  refine ⟨hvalid, ?_, fun hok => ?_⟩
  · refine (only_commands_break_a_stage (c := .standard) hvalid (by decide) (by decide) (by decide)
      (by decide) hpulling (by decide +kernel)).1.mpr ⟨?_, fun name hname => ?_⟩
    · rw [hasStrayBraces_ofText_iff]
      decide +kernel
    · exact hoffered name (mentions_ofText_iff.mp hname)
  · have hknown := ((only_commands_break_a_stage (c := .standard) hvalid (by decide) (by decide)
      (by decide) (by decide) hstray (by decide +kernel)).1.mp hok).2
    exact hunoffered.2 (hknown _ (mentions_ofText_iff.mpr hunoffered.1))

end Workflow

end WorkflowOperator
