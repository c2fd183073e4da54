import WorkflowOperator.Proofs.Job.ScriptValues
import WorkflowOperator.Proofs.Template.Lines

/-!
# Composed scripts

The fragments of the library are lines whose placeholders are all declared and which have no braces that
stray from these. Put before and after the commands of a stage they neither open a placeholder in them
nor close one, so the script is read as its lines and the commands are read alone.
-/

namespace WorkflowOperator

open Template Text

lemma terminated_eq (s : String) :
    terminated s = s ++ asLines (Fragment.when (!endsLine s) [""]) := by
  rw [← String.toList_inj]
  cases h : endsLine s <;> simp [terminated, Fragment.when, asLines, h]

/-! ### Fragments of the library -/

namespace Fragment

/-- The lines of a fragment of the library. The commands of a stage are none of these. -/
def lines : Fragment → List String
  | preamble k => bindingLines k ++ bannerLines k ++ directoryLines
  | installTool => installLines
  | pullArtifact => pullLines
  | payload _ => []
  | pushArtifact => pushLines

lemma mem_lines_preamble {k : Knobs} {l : String} (h : l ∈ (preamble k).lines) :
    l ∈ (preamble ⟨true, true, true⟩).lines := by
  simp only [lines, bindingLines, bannerLines, List.mem_append, mem_when_iff] at h ⊢
  tauto

/-- The lines of the library. A preamble that tells less than all has fewer. -/
def libraryLines : List String :=
  (preamble ⟨true, true, true⟩).lines ++ (installLines ++ (pullLines ++ pushLines))

lemma mem_libraryLines {f : Fragment} {l : String} (h : l ∈ f.lines) : l ∈ libraryLines := by
  simp only [libraryLines, List.mem_append]
  cases f with
  | preamble k => exact Or.inl (mem_lines_preamble h)
  | installTool => exact Or.inr (Or.inl h)
  | pullArtifact => exact Or.inr (Or.inr (Or.inl h))
  | payload script => cases h
  | pushArtifact => exact Or.inr (Or.inr (Or.inr h))

lemma not_isMalformed_of_mem_lines {f : Fragment} : ∀ l ∈ f.lines, ¬ IsMalformed l := by
  have hall : ∀ l ∈ libraryLines, ¬ IsMalformed l := by decide +kernel
  exact fun l hl => hall l (mem_libraryLines hl)

lemma mem_declared_of_mem_bindingLines {k : Knobs} : ∀ l ∈ bindingLines k,
    ∀ name ∈ placeholderNames l.toList, name ∈ (preamble k).declared := by
  obtain ⟨cores, nodes, tasks⟩ := k
  cases cores <;> cases nodes <;> cases tasks <;> decide +kernel

lemma mem_declared_of_mem_lines {f : Fragment} : ∀ l ∈ f.lines,
    ∀ name ∈ placeholderNames l.toList, name ∈ f.declared := by
  cases f with
  | preamble k =>
    have hrest : ∀ l ∈ bannerLines ⟨true, true, true⟩ ++ directoryLines,
        placeholderNames l.toList = [] := by decide +kernel
    intro l hl name hname
    rw [lines, List.append_assoc, List.mem_append] at hl
    rcases hl with hbinding | hl
    · exact mem_declared_of_mem_bindingLines l hbinding name hname
    · have hlongest : l ∈ bannerLines ⟨true, true, true⟩ ++ directoryLines := by
        simp only [bannerLines, List.mem_append, mem_when_iff] at hl ⊢
        tauto
      rw [hrest l hlongest] at hname
      cases hname
  | installTool => decide +kernel
  | pullArtifact => decide +kernel
  | payload script => exact fun l hl => absurd hl List.not_mem_nil
  | pushArtifact => decide +kernel

end Fragment

/-! ### The script around the commands -/

namespace ResolvedJob

variable (j : ResolvedJob)

def leading : List Fragment :=
  [.preamble ⟨true, true, j.step.config.tasks.isSome⟩, .installTool] ++
    Fragment.when (!j.registry.pull.isEmpty) [.pullArtifact]

def trailing : List Fragment := Fragment.when (!j.registry.push.isEmpty) [.pushArtifact]

def leadingLines : List String := j.leading.flatMap Fragment.lines

/-- The lines after the commands of a stage; the first one ends the last line of the commands. -/
def trailingLines : List String :=
  Fragment.when (!endsLine j.step.script) [""] ++ j.trailing.flatMap Fragment.lines

variable {j}

lemma script_eq (tools : ToolSource) (h : j.step.script ≠ "") : j.script tools =
    j.scriptBindings tools >>= (ofText (Fragment.compose j.fragments)).render := by
  have hne : j.fragments ≠ [] := by
    rw [fragments, if_neg (by rwa [String.isEmpty_iff])]
    simp
  unfold script
  split
  next hnil => exact absurd hnil hne
  next => rfl

lemma compose_fragments (h : j.step.script ≠ "") : Fragment.compose j.fragments =
    asLines j.leadingLines ++ (j.step.script ++ asLines j.trailingLines) := by
  have hscript : j.step.script.isEmpty = false := by
    rwa [Bool.eq_false_iff, ne_eq, String.isEmpty_iff]
  rw [← String.toList_inj]
  simp only [fragments, hscript, leadingLines, leading, trailingLines, trailing]
  cases j.registry.pull.isEmpty <;> cases j.registry.push.isEmpty <;>
    simp [Fragment.compose, Fragment.when, Fragment.text, Fragment.lines, terminated_eq,
      asLines_append]

lemma not_isMalformed_of_mem_leadingLines : ∀ l ∈ j.leadingLines, ¬ IsMalformed l := by
  intro l hl
  obtain ⟨f, -, hf⟩ := List.mem_flatMap.mp hl
  exact Fragment.not_isMalformed_of_mem_lines l hf

lemma not_isMalformed_of_mem_trailingLines : ∀ l ∈ j.trailingLines, ¬ IsMalformed l := by
  intro l hl
  rw [trailingLines, List.mem_append, Fragment.mem_when_iff, List.mem_singleton] at hl
  rcases hl with ⟨-, rfl⟩ | hl
  · decide +kernel
  · obtain ⟨f, -, hf⟩ := List.mem_flatMap.mp hl
    exact Fragment.not_isMalformed_of_mem_lines l hf

/-- What follows the commands, if there is anything, starts with a line feed and goes on as no
placeholder does. -/
lemma trailing_starts : IsBarrier (asLines j.trailingLines).toList ∧
    (outside (asLines j.trailingLines).toList).head? ≠ some '{' := by
  rw [toList_asLines, trailingLines, trailing]
  cases endsLine j.step.script <;> cases j.registry.push.isEmpty <;> decide +kernel

lemma isCut_script : IsCut j.step.script.toList (asLines j.trailingLines).toList :=
  isCut_of_isBarrier trailing_starts.1 _

lemma isMalformed_compose_iff (h : j.step.script ≠ "") :
    IsMalformed (Fragment.compose j.fragments) ↔ IsMalformed j.step.script := by
  have htrailing : ¬ HasPair (outside (asLines j.trailingLines).toList) :=
    not_isMalformed_asLines not_isMalformed_of_mem_trailingLines
  rw [compose_fragments h, IsMalformed, String.toList_append, String.toList_append,
    hasPair_asLines_iff not_isMalformed_of_mem_leadingLines, outside_append_of_isCut isCut_script,
    hasPair_append_iff, or_iff_right htrailing]
  exact or_iff_left fun hmeet => trailing_starts.2 hmeet.2

lemma mem_placeholderNames_compose_iff (h : j.step.script ≠ "") {name : String} :
    name ∈ placeholderNames (Fragment.compose j.fragments).toList ↔
      name ∈ placeholderNames j.step.script.toList ∨
        ∃ l ∈ j.leadingLines ++ j.trailingLines, name ∈ placeholderNames l.toList := by
  rw [compose_fragments h, String.toList_append, String.toList_append,
    mem_placeholderNames_asLines_iff not_isMalformed_of_mem_leadingLines,
    placeholderNames_append_of_isCut isCut_script, List.mem_append,
    mem_placeholderNames_asLines not_isMalformed_of_mem_trailingLines]
  simp only [List.mem_append, or_and_right, exists_or]
  exact or_left_comm

lemma mem_scriptValues_of_declared {tools : ToolSource} :
    ∀ f ∈ j.leading ++ j.trailing, ∀ name ∈ f.declared,
      name ∈ (j.scriptValues tools).map Prod.fst := by
  unfold leading trailing scriptValues
  cases j.step.config.tasks <;> cases j.registry.pull.isEmpty <;>
    cases j.registry.push.isEmpty <;> simp [Fragment.when, Fragment.declared]

lemma mem_scriptValues_of_mem_lines {tools : ToolSource} {l name : String}
    (hl : l ∈ j.leadingLines ++ j.trailingLines) (hname : name ∈ placeholderNames l.toList) :
    name ∈ (j.scriptValues tools).map Prod.fst := by
  have hfragment : ∀ f ∈ j.leading ++ j.trailing, l ∈ f.lines →
      name ∈ (j.scriptValues tools).map Prod.fst := by
    intro f hf hlines
    exact mem_scriptValues_of_declared f hf name (Fragment.mem_declared_of_mem_lines l hlines name hname)
  rw [leadingLines, trailingLines, List.mem_append, List.mem_append, Fragment.mem_when_iff,
    List.mem_singleton, List.mem_flatMap, List.mem_flatMap] at hl
  rcases hl with ⟨f, hf, hlines⟩ | ⟨-, rfl⟩ | ⟨f, hf, hlines⟩
  · exact hfragment f (List.mem_append_left _ hf) hlines
  · rw [String.toList_empty, placeholderNames_nil] at hname
    cases hname
  · exact hfragment f (List.mem_append_right _ hf) hlines

end ResolvedJob

end WorkflowOperator
