import WorkflowOperator.Proofs.Job.Written

/-!
# Templates of documents and their values

The lines of a document's template and the values for them are chosen apart from each other. Both choose
alike: every placeholder has a value and every value a placeholder. All values stand on one line, so
none is refused, and what a document can fail at is only that it does not read back.
-/

namespace WorkflowOperator

namespace ResolvedJob

open Template

lemma mem_keys_documentBindings {j : ResolvedJob} {b : Bindings} (h : j.documentBindings = .ok b)
    (script name : String) :
    name ∈ b.values.keys ↔ name ∈ (j.documentTemplate script).placeholders := by
  obtain ⟨_, hb, hvalues, hother⟩ := j.exists_documentBindings
  rw [h] at hb
  cases hb
  rw [SortedMap.mem_keys_iff, mem_placeholders_documentTemplate]
  constructor
  · rintro ⟨v, hv⟩
    by_contra hnone
    have hget : b.get? name = none := hother name fun e he heq => hnone ⟨e, he, heq⟩
    rw [Bindings.get?, hv] at hget
    cases hget
  · rintro ⟨e, he, rfl⟩
    exact ⟨e.2, hvalues e he⟩

lemma document_eq_error_iff {j : ResolvedJob} {script : String} {fault : Fault} :
    j.document script = .error fault ↔
      ∃ reason, Yaml.Value.ofText (j.writtenDocument script) = .error reason ∧
        fault = .unreadableDocument j.step.name reason.message := by
  unfold document
  simp only [documentText_eq, bind, Except.bind]
  cases Yaml.Value.ofText (j.writtenDocument script) with
  | ok v =>
    refine iff_of_false (fun h => ?_) ?_
    · cases h
    · rintro ⟨_, ⟨⟩, -⟩
  | error reason =>
    constructor
    · rintro ⟨⟩
      exact ⟨reason, rfl, rfl⟩
    · rintro ⟨_, ⟨⟩, rfl⟩
      rfl

/-- The template of a document and the values for it agree, whatever the stage and its script. The
template is well formed, its placeholders are the names of the values, and no value breaks its line; so
there is always a text, and the stage's own texts stand in it as they are. The only fault a document can
have is that this text does not read back. -/
theorem template_and_values_agree (j : ResolvedJob) (script : String) :
    (j.documentTemplate script).check = .ok () ∧
    (∀ s : String, Bindings.breaksLine (Json.quote s) = false) ∧
    (∀ m : TextMap String, Bindings.breaksLine (Json.ofTextMap m).compact = false) ∧
    ∃ b, j.documentBindings = .ok b ∧
      (j.documentTemplate script).placeholders = b.values.keys ∧
      (j.documentTemplate script).render b = .ok (j.writtenDocument script) ∧
      ∀ fault, j.document script = .error fault ↔
        ∃ reason, Yaml.Value.ofText (j.writtenDocument script) = .error reason ∧
          fault = .unreadableDocument j.step.name reason.message := by
  obtain ⟨b, hb, hvalues, -⟩ := j.exists_documentBindings
  have hrender := render_documentTemplate hvalues script
  have hcheck : (j.documentTemplate script).check = .ok () := by
    obtain ⟨_, hcheck, -⟩ := bind_eq_ok_iff.mp hrender
    exact hcheck
  refine ⟨hcheck, fun s => (LineValue.quoted s).breaksLine_text, breaksLine_ofTextMap, b, hb, ?_,
    hrender, fun fault => document_eq_error_iff⟩
  exact SortedMap.keys_eq_of_mem_iff fun name => (mem_keys_documentBindings hb script name).symm

end ResolvedJob

end WorkflowOperator
