import WorkflowOperator.Proofs.Yaml.Lacking
import WorkflowOperator.Workflow.Reading

/-!
# Required entries

A document has to have its metadata, these and every stage a name, and every event a metric and an action.
What the reader of documents reports as missing is one of these entries, and the mapping that it belongs to
lacks it.
-/

namespace WorkflowOperator

open Yaml Yaml.Decoder

lemma Condition.decoder_neverMisses : NeverMisses Condition.decoder := by
  intro anchors place n
  refine (missesNothing_follow anchors n).bind fun n' => ?_
  split
  · split_ifs
    · exact missesNothing_throw nofun
    · split
      · exact missesNothing_pure _
      · exact missesNothing_pure _
      · exact missesNothing_pure _
      · exact missesNothing_mismatch _ _
  · exact MissesNothing.bind (missesNothing_ofNode _ _ _ _) fun v => missesNothing_throw nofun

/-- The entries that a document has to have, by the branches of the mapping that they are required in. -/
inductive IsRequired : List Branch → String → Prop
  | metadata : IsRequired [] "metadata"
  | name : IsRequired [.entry "metadata"] "name"
  | stageName (index : Nat) : IsRequired [.entry "spec", .entry "jobs", .item index] "name"
  | metric (index : Nat) :
    IsRequired [.entry "spec", .entry "workflow", .entry "events", .item index] "metric"
  | action (index : Nat) :
    IsRequired [.entry "spec", .entry "workflow", .entry "events", .item index] "action"

lemma WorkflowEvent.decoder_misses : WorkflowEvent.decoder.Misses fun path name =>
    path = [] ∧ name ∈ ["metric", "action"] := by
  refine record_misses (fun name hname => ⟨rfl, hname⟩) (by decide) ?_ (by decide)
  simp only [List.forall_mem_cons]
  exact ⟨text_neverMisses.field _ _, Condition.decoder_neverMisses.optional.field _ _,
    text_neverMisses.field _ _, int32_neverMisses.optional.field _ _,
    word32_neverMisses.optional.field _ _, word32_neverMisses.optional.field _ _,
    word32_neverMisses.optional.field _ _, word32_neverMisses.optional.field _ _, by simp⟩

lemma CompletionPolicy.decoder_misses : CompletionPolicy.decoder.Misses fun path name =>
    ∃ index, path = [.entry "events", .item index] ∧ name ∈ ["metric", "action"] := by
  refine record_misses (by simp) (by simp) ?_ (by decide)
  simp only [List.forall_mem_cons]
  refine ⟨(word32_neverMisses.field _ _).alsoNamed _, (text_neverMisses.field _ _).alsoNamed _,
    WorkflowEvent.decoder_misses.list.entry (fun path name =>
      ∃ index, path = [.entry "events", .item index] ∧ name ∈ ["metric", "action"]) _ ?_, by simp⟩
  rintro _ name ⟨index, _, rfl, rfl, hname⟩
  exact ⟨index, rfl, hname⟩

lemma RegistryPolicy.decoder_neverMisses : NeverMisses RegistryPolicy.decoder := by
  refine record_neverMisses ?_ (by decide)
  simp only [List.forall_mem_cons]
  exact ⟨fun _ => text_neverMisses.field _ _, fun _ => text_neverMisses.field _ _,
    fun _ => word16_neverMisses.field _ _, fun _ => flag_neverMisses.optional.field _ _,
    fun _ => (flag_neverMisses.field _ _).alsoNamed _, fun _ => word32_neverMisses.field _ _,
    fun _ => text_neverMisses.field _ _, fun _ => text_neverMisses.field _ _,
    fun _ => text_neverMisses.field _ _, by simp⟩

lemma ManagerPolicy.decoder_neverMisses : NeverMisses ManagerPolicy.decoder := by
  refine record_neverMisses ?_ (by decide)
  simp only [List.forall_mem_cons]
  exact ⟨fun _ => word32_neverMisses.field _ _, fun _ => text_neverMisses.field _ _,
    fun _ => word32_neverMisses.field _ _, fun _ => word32_neverMisses.field _ _,
    fun _ => flag_neverMisses.field _ _, fun _ => text_neverMisses.field _ _,
    fun _ => text_neverMisses.field _ _, fun _ => text_neverMisses.field _ _, by simp⟩

lemma ClusterPolicy.decoder_neverMisses : NeverMisses ClusterPolicy.decoder := by
  refine record_neverMisses ?_ (by decide)
  simp only [List.forall_mem_cons]
  exact ⟨fun _ => word32_neverMisses.field _ _, fun _ => flag_neverMisses.field _ _, by simp⟩

lemma RegistryOverride.decoder_neverMisses : NeverMisses RegistryOverride.decoder := by
  refine record_neverMisses ?_ (by decide)
  simp only [List.forall_mem_cons]
  exact ⟨fun _ => text_neverMisses.field _ _, fun _ => text_neverMisses.field _ _,
    fun _ => text_neverMisses.field _ _, fun _ => flag_neverMisses.optional.field _ _, by simp⟩

lemma JobConfig.decoder_neverMisses : NeverMisses JobConfig.decoder := by
  refine record_neverMisses ?_ (by decide)
  simp only [List.forall_mem_cons]
  exact ⟨fun _ => word32_neverMisses.field _ _, fun _ => word32_neverMisses.field _ _,
    fun _ => word32_neverMisses.optional.field _ _, fun _ => word32_neverMisses.field _ _,
    fun _ => flag_neverMisses.field _ _, fun _ => text_neverMisses.optional.field _ _,
    fun _ => text_neverMisses.field _ _, fun _ => (text_neverMisses.field _ _).alsoNamed _,
    fun _ => text_neverMisses.optional.field _ _, by simp⟩

lemma JobStep.decoder_misses : JobStep.decoder.Misses fun path name => path = [] ∧ name = "name" := by
  refine record_misses (by simp) (by decide) ?_ (by decide)
  simp only [List.forall_mem_cons]
  exact ⟨text_neverMisses.field _ _, JobConfig.decoder_neverMisses.field _ _,
    RegistryOverride.decoder_neverMisses.field _ _, text_neverMisses.field _ _,
    text_neverMisses.field _ _, text_neverMisses.textMap.field _ _, text_neverMisses.field _ _,
    flag_neverMisses.field _ _, text_neverMisses.field _ _, text_neverMisses.field _ _, by simp⟩

lemma WorkflowSpec.decoder_misses : WorkflowSpec.decoder.Misses fun path name =>
    IsRequired (.entry "spec" :: path) name := by
  refine record_misses (by simp) (by simp) ?_ (by decide)
  simp only [List.forall_mem_cons]
  refine ⟨RegistryPolicy.decoder_neverMisses.field _ _, ManagerPolicy.decoder_neverMisses.field _ _,
    ClusterPolicy.decoder_neverMisses.field _ _, CompletionPolicy.decoder_misses.entry
      (fun path name => IsRequired (.entry "spec" :: path) name) _ ?_,
    JobStep.decoder_misses.list.entry (fun path name => IsRequired (.entry "spec" :: path) name) _ ?_,
    by simp⟩
  · rintro _ name ⟨index, rfl, hname⟩
    simp only [List.mem_cons, List.not_mem_nil, or_false] at hname
    rcases hname with rfl | rfl
    · exact .metric index
    · exact .action index
  · rintro _ _ ⟨index, _, rfl, rfl, rfl⟩
    exact .stageName index

lemma Identity.decoder_misses : Identity.decoder.Misses fun path name => path = [] ∧ name = "name" := by
  refine record_misses (by simp) (by decide) ?_ (by decide)
  simp only [List.forall_mem_cons]
  exact ⟨text_neverMisses.field _ _, text_neverMisses.field _ _, text_neverMisses.optional.field _ _,
    by simp⟩

namespace Workflow

lemma decoder_misses : decoder.Misses IsRequired := by
  refine record_misses ?_ (by decide) ?_ (by decide)
  · intro name hname
    obtain rfl := List.mem_singleton.mp hname
    exact .metadata
  simp only [List.forall_mem_cons]
  refine ⟨text_neverMisses.field _ _, text_neverMisses.field _ _,
    Identity.decoder_misses.entry IsRequired _ ?_,
    WorkflowSpec.decoder_misses.entry IsRequired _ fun _ _ h => h, by simp⟩
  rintro _ _ ⟨rfl, rfl⟩
  exact .name

/-- A mapping in a document lacks an entry that it has to have. -/
def LacksRequired (document name : String) : Prop :=
  ∃ path, IsRequired path name ∧
    (Document.ofText document).anchors.LacksAt (Document.ofText document).root path name

lemma backquote_notMem_required {path : List Branch} {name : String} (h : IsRequired path name) :
    '\x60' ∉ name.toList := by
  cases h <;> decide

end Workflow

end WorkflowOperator
