import WorkflowOperator.Proofs.Job.ScriptOutcome

/-!
# Scripts put together from filled fragments

A stage's script is filled in after its fragments were put together, yet it is what they are when each
is filled in on its own. The fragments of the library leave no pair of opening braces behind, and the
commands are followed by a line that ends no placeholder, so whatever the commands begin or end with, no
placeholder goes across a border.
-/

namespace WorkflowOperator

open Template Text

/-! ### Fragments that are read apart -/

namespace Fragment

lemma isCut_text {f : Fragment} (h : ∀ script, f ≠ payload script) (rest : List Char) :
    IsCut f.text.toList rest := by
  have htext : f.text = asLines f.lines := by
    cases f with
    | payload script => exact absurd rfl (h script)
    | preamble k => rfl
    | installTool => rfl
    | pullArtifact => rfl
    | pushArtifact => rfl
  rw [htext]
  exact isCut_asLines not_isMalformed_of_mem_lines rest

lemma compose_when (on : Bool) (f : Fragment) :
    compose (when on [f]) = if on then f.text else "" := by
  rw [← String.toList_inj]
  cases on <;> simp [compose, when]

lemma isCut_compose_when {f : Fragment} (h : ∀ script, f ≠ payload script) (on : Bool)
    (rest : List Char) : IsCut (compose (when on [f])).toList rest := by
  rw [compose_when]
  split
  · exact isCut_text h rest
  · exact isCut_asLines (List.forall_mem_nil fun l => ¬ IsMalformed l) rest

end Fragment

namespace ResolvedJob

variable {tools : ToolSource} {j : ResolvedJob} {b : Bindings} {out : String}

/-- The texts of the fragments of a stage with commands; one that is left out is empty. -/
def fragmentTexts (j : ResolvedJob) : List String :=
  [(Fragment.preamble ⟨true, true, j.step.config.tasks.isSome⟩).text,
    Fragment.installTool.text,
    Fragment.compose (Fragment.when (!j.registry.pull.isEmpty) [.pullArtifact]),
    (Fragment.payload j.step.script).text,
    Fragment.compose (Fragment.when (!j.registry.push.isEmpty) [.pushArtifact])]

lemma compose_eq_join (h : j.step.script ≠ "") :
    Fragment.compose j.fragments = String.join j.fragmentTexts := by
  have hscript : j.step.script.isEmpty = false := by
    rwa [Bool.eq_false_iff, ne_eq, String.isEmpty_iff]
  rw [← String.toList_inj]
  simp only [fragments, hscript, fragmentTexts, Fragment.compose]
  cases j.registry.pull.isEmpty <;> cases j.registry.push.isEmpty <;> simp [Fragment.when]

/-- What directly follows the commands ends no placeholder. -/
lemma isBarrier_push (on : Bool) :
    IsBarrier (String.join [Fragment.compose (Fragment.when on [.pushArtifact])]).toList := by
  cases on <;> decide +kernel

lemma areReadApart_fragmentTexts : AreReadApart j.fragmentTexts := by
  refine ⟨?preamble, ?install, ?pull, ?commands, ?push, trivial⟩
  case preamble => exact Fragment.isCut_text (by simp) _
  case install => exact Fragment.isCut_text (by simp) _
  case pull => exact Fragment.isCut_compose_when (by simp) _ _
  case commands => exact isCut_of_isBarrier (isBarrier_push _) _
  case push => exact Fragment.isCut_compose_when (by simp) _ _

end ResolvedJob

/-! ### Filled fragments -/

/-- A fragment filled in on its own. -/
def Fragment.FilledIn (b : Bindings) (f : Fragment) (out : String) : Prop :=
  (ofText f.text).render b = .ok out

namespace Fragment

variable {b : Bindings} {out : String}

lemma FilledIn.eq_fill {f : Fragment} (h : f.FilledIn b out) : out = fill b f.text :=
  (render_ofText_ok_iff.mp h).2.2

lemma filledIn_of_when {f : Fragment} {tag : String}
    (h : (ofText (compose (when (!tag.isEmpty) [f]))).render b = .ok out) :
    if tag = "" then out = "" else f.FilledIn b out := by
  rw [compose_when] at h
  by_cases htag : tag = ""
  · subst htag
    obtain ⟨-, -, rfl⟩ := render_ofText_ok_iff.mp h
    rw [if_pos rfl]
    exact fill_plain not_hasPair_nil
  · rw [if_neg htag]
    rwa [if_pos (by simpa using htag)] at h

lemma FilledIn.commands {script : String} (h : (payload script).FilledIn b out) :
    out = fill b script ++ if endsLine script then "" else "\n" := by
  have hend : asLines (when (!endsLine script) [""]) = if endsLine script then "" else "\n" := by
    cases endsLine script <;> rfl
  have hplain : ¬ HasPair (if endsLine script then "" else "\n" : String).toList := by
    cases endsLine script <;> decide
  have hbarrier : IsBarrier (if endsLine script then "" else "\n" : String).toList := by
    cases endsLine script <;> decide
  rw [h.eq_fill, text, terminated_eq, hend, fill_append_of_isCut (isCut_of_isBarrier hbarrier _),
    fill_plain hplain]

def filledBindingLines (b : Bindings) (k : Knobs) : List String :=
  ["", "jobid=\"" ++ b.textOf "jobid" ++ "\"", "outpath=\"" ++ b.textOf "outpath" ++ "\"",
    "registry=\"" ++ b.textOf "registry" ++ "\""] ++
  when k.coresPerTask ["cores_per_task=" ++ b.textOf "cores_per_task"] ++
  when k.nodes ["nodes=" ++ b.textOf "nodes"] ++
  when k.tasks ["tasks=" ++ b.textOf "tasks"]

lemma map_fill_bindingLines (k : Knobs) : (bindingLines k).map (fill b) = filledBindingLines b k := by
  have hwhen : ∀ (on : Bool) (l : String), (when on [l]).map (fill b) = when on [fill b l] := by
    intro on l
    cases on <;> rfl
  simp only [bindingLines, filledBindingLines, List.map_append, List.map_cons, List.map_nil, hwhen]
  simp (disch := decide +kernel) only [String.append_assoc, fill_plain_append, fill_slot_append,
    fill_slot, fill_plain]

lemma fill_preamble (k : Knobs) : fill b (preamble k).text =
    asLines (filledBindingLines b k ++ bannerLines k ++ directoryLines) := by
  have hshown : (bannerLines k).map (fill b) = bannerLines k := by
    refine map_fill_plain ?_
    obtain ⟨cores, nodes, tasks⟩ := k
    cases cores <;> cases nodes <;> cases tasks <;> decide
  have hentered : directoryLines.map (fill b) = directoryLines := map_fill_plain (by decide)
  have hlines : ∀ l ∈ bindingLines k ++ bannerLines k ++ directoryLines, ¬ IsMalformed l :=
    not_isMalformed_of_mem_lines (f := .preamble k)
  rw [text, fill_asLines hlines, List.map_append, List.map_append, hshown, hentered,
    map_fill_bindingLines]

/-- The first thing that is pushed with is the status of the commands. -/
lemma FilledIn.push (h : pushArtifact.FilledIn b out) : ∃ rest, out = "\nretval=$?\n" ++ rest := by
  have hlines : ∀ l ∈ pushLines, ¬ IsMalformed l := not_isMalformed_of_mem_lines (f := .pushArtifact)
  have hfirst : pushLines.take 2 = ["", "retval=$?"] := rfl
  have hplain : ["", "retval=$?"].map (fill b) = ["", "retval=$?"] := map_fill_plain (by decide)
  refine ⟨asLines ((pushLines.drop 2).map (fill b)), ?_⟩
  rw [h.eq_fill, text, fill_asLines hlines]
  conv_lhs => rw [← List.take_append_drop 2 pushLines]
  rw [hfirst, List.map_append, hplain, asLines_append]
  rfl

end Fragment

/-! ### The script of a stage -/

/-- The parts of a stage's script. -/
structure ScriptParts where
  preamble : String
  install : String
  pulled : String
  commands : String
  pushed : String

def ScriptParts.text (p : ScriptParts) : String :=
  p.preamble ++ p.install ++ p.pulled ++ p.commands ++ p.pushed

namespace ResolvedJob

/-- The lines of a stage's preamble. The number of tasks is told if it is set. -/
def preambleLines (j : ResolvedJob) : List String :=
  ["", "jobid=\"" ++ Bindings.variableOr jobidVariable j.jobid ++ "\"",
    "outpath=\"" ++ j.step.workdir ++ "\"",
    "registry=\"" ++ j.registry.host ++ "\"",
    "cores_per_task=" ++ toString j.step.config.coresPerTask.toNat,
    "nodes=" ++ toString j.step.config.nodes.toNat] ++
  (j.step.config.tasks.map fun n => "tasks=" ++ toString n.toNat).toList ++
  Fragment.bannerLines ⟨true, true, j.step.config.tasks.isSome⟩ ++ Fragment.directoryLines

/-- The line feed that is put after commands that do not end in one. -/
def lastFeed (j : ResolvedJob) : String := if endsLine j.step.script then "" else "\n"

end ResolvedJob

/-- The parts are the fragments of a stage, each filled in on its own with the same values. -/
structure ScriptParts.AreFilledIn (p : ScriptParts) (j : ResolvedJob) (b : Bindings) : Prop where
  preamble : (Fragment.preamble ⟨true, true, j.step.config.tasks.isSome⟩).FilledIn b p.preamble
  preamble_eq : p.preamble = asLines j.preambleLines
  install : Fragment.installTool.FilledIn b p.install
  pulled : if j.registry.pull = "" then p.pulled = "" else Fragment.pullArtifact.FilledIn b p.pulled
  commands : (Fragment.payload j.step.script).FilledIn b p.commands
  /-- The placeholders of the commands are replaced and nothing else is. -/
  replaced : ∃ filled : String, Substituted b.value j.step.script.toList filled.toList ∧
    p.commands = filled ++ j.lastFeed
  verbatim : (∀ name, ¬ (ofText j.step.script).Mentions name) → p.commands = j.step.script ++ j.lastFeed
  /-- What pushes the result asks for the status of the commands first. -/
  pushed : if j.registry.push = "" then p.pushed = "" else
    Fragment.pushArtifact.FilledIn b p.pushed ∧ ∃ rest, p.pushed = "\nretval=$?\n" ++ rest

namespace ResolvedJob

variable {tools : ToolSource} {j : ResolvedJob} {b : Bindings} {out : String}

lemma textOf_of_mem {name value : String} (hb : j.scriptBindings tools = .ok b)
    (h : (name, value) ∈ j.scriptValues tools) : b.textOf name = value := by
  obtain ⟨-, rfl⟩ := scriptBindings_eq_ok_iff.mp hb
  exact Bindings.textOf_eq ((SortedMap.get?_ofList nodup_keys_scriptValues).mpr h)

lemma fill_preamble_eq (hb : j.scriptBindings tools = .ok b) :
    fill b (Fragment.preamble ⟨true, true, j.step.config.tasks.isSome⟩).text =
      asLines j.preambleLines := by
  have hvalue : ∀ {name value : String}, (name, value) ∈ j.scriptValues tools →
      b.textOf name = value := textOf_of_mem hb
  have hjobid : b.textOf "jobid" = Bindings.variableOr jobidVariable j.jobid :=
    hvalue (by simp [scriptValues])
  have houtpath : b.textOf "outpath" = j.step.workdir := hvalue (by simp [scriptValues])
  have hregistry : b.textOf "registry" = j.registry.host := hvalue (by simp [scriptValues])
  have hcores : b.textOf "cores_per_task" = toString j.step.config.coresPerTask.toNat :=
    hvalue (by simp [scriptValues])
  have hnodes : b.textOf "nodes" = toString j.step.config.nodes.toNat :=
    hvalue (by simp [scriptValues])
  have htasks : Fragment.when j.step.config.tasks.isSome ["tasks=" ++ b.textOf "tasks"] =
      (j.step.config.tasks.map fun n => "tasks=" ++ toString n.toNat).toList := by
    cases hset : j.step.config.tasks with
    | none => rfl
    | some n =>
      have hn : b.textOf "tasks" = toString n.toNat := hvalue (by simp [scriptValues, hset])
      rw [hn]
      rfl
  rw [Fragment.fill_preamble, Fragment.filledBindingLines, hjobid, houtpath, hregistry, hcores,
    hnodes, htasks]
  rfl

/-- The script of a stage with commands is what its fragments are when each is filled in on its own, in
order. One that pulls is there if a tag is pulled; one that pushes directly follows the commands and is
the last one. -/
theorem script_of_filled_fragments (h : j.step.script ≠ "") (hout : j.script tools = .ok out) :
    ∃ (b : Bindings) (p : ScriptParts), j.scriptBindings tools = .ok b ∧
      p.AreFilledIn j b ∧ out = p.text := by
  rw [script_eq tools h, bind_eq_ok_iff, compose_eq_join h] at hout
  obtain ⟨b, hb, hrender⟩ := hout
  obtain ⟨parts, hparts, rfl⟩ := render_join areReadApart_fragmentTexts hrender
  simp only [fragmentTexts, List.forall₂_cons_left_iff, List.forall₂_nil_left_iff] at hparts
  obtain ⟨preamble, _, hpreamble, ⟨install, _, hinstall, ⟨pulled, _, hpulled, ⟨commands, _, hcommands,
    ⟨pushed, _, hpushed, rfl, rfl⟩, rfl⟩, rfl⟩, rfl⟩, rfl⟩ := hparts
  have hfilled : (Fragment.payload j.step.script).FilledIn b commands := hcommands
  refine ⟨b, ⟨preamble, install, pulled, commands, pushed⟩, hb, ?_,
    by simp [ScriptParts.text, String.append_assoc]⟩
  refine ⟨hpreamble, ?preamble_eq, hinstall, Fragment.filledIn_of_when hpulled, hcommands,
    ⟨fill b j.step.script, ?replaced, hfilled.commands⟩, ?verbatim, ?pushed⟩
  case preamble_eq => exact (Fragment.FilledIn.eq_fill hpreamble).trans (fill_preamble_eq hb)
  case replaced => exact substituted_iff.mpr (toList_fill b _)
  case verbatim =>
    intro hnone
    simp only [mentions_ofText_iff] at hnone
    have hsame : fill b j.step.script = j.step.script :=
      fill_of_placeholderNames_eq_nil (List.eq_nil_iff_forall_not_mem.mpr hnone)
    rw [← hsame]
    exact hfilled.commands
  case pushed =>
    have hpush := Fragment.filledIn_of_when hpushed
    split at hpush
    next hempty => rwa [if_pos hempty]
    next hne => exact (if_neg hne).mpr ⟨hpush, hpush.push⟩

/-- A stage that pulls, says how many tasks it has, and pushes. Its commands end in an opening brace. -/
def relaying : ResolvedJob :=
  (Workflow.stageless "training" "lab" "1f0a").resolve .standard
    { JobStep.running "train" ("echo " ++ slot "jobid" ++ " \x7b") with
      config := { JobConfig.unset with tasks := some 4 }
      registry := ⟨"", "model", "report", none⟩ }

theorem relaying_script_of_filled_fragments : relaying.step.script ≠ "" ∧
    ∃ out, relaying.script Config.standard.tools = .ok out ∧
      ∃ (b : Bindings) (p : ScriptParts), relaying.scriptBindings Config.standard.tools = .ok b ∧
        p.AreFilledIn relaying b ∧ out = p.text := by
  have hne : relaying.step.script ≠ "" := by decide +kernel
  have hfilled : ∃ out, relaying.script Config.standard.tools = .ok out := by
    refine (exists_script_iff hne (by decide +kernel)).mpr ⟨?_, fun name hname => ?_⟩
    · rw [hasStrayBraces_ofText_iff]
      decide +kernel
    · rw [mentions_ofText_iff] at hname
      revert name
      decide +kernel
  exact ⟨hne, hfilled.imp fun _ hout => ⟨hout, script_of_filled_fragments hne hout⟩⟩

end ResolvedJob

end WorkflowOperator
