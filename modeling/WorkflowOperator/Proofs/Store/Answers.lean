import WorkflowOperator.Proofs.Store.Growth

/-!
# What a store answers

A store takes an object if its key is fit for a store and not in use, and it finds an object if it has
one of that key.
-/

namespace WorkflowOperator

/-- Whether a store would take an object with this key, if it has none. -/
def ObjectKey.IsStorable (key : ObjectKey) : Prop := key.name ≠ "" ∧ key.isInScope = true

namespace Store

variable {s : Store} {key : ObjectKey}

lemma refusal?_of_contains (h : key.IsStorable) (hs : s.contains key = true) :
    s.refusal? key = some (.alreadyExists key.kind key.name) := by
  have hname : key.name.isEmpty = false := by
    rw [Bool.eq_false_iff, Ne, String.isEmpty_iff]
    exact h.1
  simp [refusal?, hname, h.2, hs]

lemma refusal?_eq_none_iff :
    s.refusal? key = none ↔ key.IsStorable ∧ s.contains key = false := by
  rw [refusal?, ObjectKey.IsStorable, Ne, ← String.isEmpty_iff]
  cases key.name.isEmpty <;> cases key.isInScope <;> cases s.contains key <;> simp

lemma lookup_of_contains (h : s.contains key = true) : ∃ r, s.lookup key = .ok r := by
  obtain ⟨r, hr⟩ := (SortedMap.contains_eq_true_iff _ _).mp h
  exact ⟨r, by simp [lookup, hr]⟩

lemma lookup_of_not_contains (h : s.contains key = false) :
    s.lookup key = .error (.notFound key.kind key.name) := by
  simp [lookup, (SortedMap.contains_eq_false_iff _ _).mp h]

lemma lookup_eq_notFound_iff :
    s.lookup key = .error (.notFound key.kind key.name) ↔ s.objects.get? key = none := by
  rw [lookup]
  cases s.objects.get? key <;> simp

lemma lookup_eq_ok_iff {r : Resource} : s.lookup key = .ok r ↔ s.objects.get? key = some r := by
  rw [lookup]
  cases s.objects.get? key <;> simp

end Store

end WorkflowOperator
