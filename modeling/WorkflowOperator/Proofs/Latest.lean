import Mathlib.Data.List.Induction
import Mathlib.Tactic.Lemma

/-!
# The latest in a list

What was said of a thing counts until something later overrides it. In a list that grows at its end the
last element counts, and of those before it the ones that it does not override.
-/

namespace WorkflowOperator

variable {α : Type} {overrides : α → Prop} {l : List α} {x y : α}

/-- Whether an element is in a list with nothing after it that overrides it. -/
def IsLatest (overrides : α → Prop) (l : List α) (x : α) : Prop :=
  ∃ before after, l = before ++ x :: after ∧ ∀ y ∈ after, ¬ overrides y

lemma not_isLatest_nil : ¬ IsLatest overrides [] x := by
  rintro ⟨before, after, hnil, -⟩
  simp at hnil

lemma IsLatest.mem (h : IsLatest overrides l x) : x ∈ l := by
  obtain ⟨before, after, rfl, -⟩ := h
  exact List.mem_append_right _ List.mem_cons_self

/-- The last element counts, and so does what counted before it and is not overridden by it. -/
lemma isLatest_concat_iff :
    IsLatest overrides (l ++ [y]) x ↔ x = y ∨ (IsLatest overrides l x ∧ ¬ overrides y) := by
  constructor
  · rintro ⟨before, after, hsplit, hafter⟩
    rcases List.eq_nil_or_concat after with rfl | ⟨after, z, rfl⟩
    · obtain ⟨-, hlast⟩ := List.append_inj' hsplit rfl
      exact Or.inl (List.singleton_inj.mp hlast).symm
    · rw [List.concat_eq_append, ← List.cons_append, ← List.append_assoc] at hsplit
      obtain ⟨hfront, hlast⟩ := List.append_inj' hsplit rfl
      obtain rfl : y = z := List.singleton_inj.mp hlast
      rw [List.concat_eq_append, List.forall_mem_append, List.forall_mem_singleton] at hafter
      exact Or.inr ⟨⟨before, after, hfront, hafter.1⟩, hafter.2⟩
  · rintro (rfl | ⟨⟨before, after, rfl, hafter⟩, hkept⟩)
    · exact ⟨l, [], rfl, by simp⟩
    · refine ⟨before, after ++ [y], by simp, ?_⟩
      rw [List.forall_mem_append, List.forall_mem_singleton]
      exact ⟨hafter, hkept⟩

lemma exists_isLatest (h : ∃ x ∈ l, overrides x) : ∃ x, overrides x ∧ IsLatest overrides l x := by
  induction l using List.reverseRecOn with
  | nil => simp at h
  | append_singleton l y ih =>
    by_cases hy : overrides y
    · exact ⟨y, hy, isLatest_concat_iff.mpr (Or.inl rfl)⟩
    · obtain ⟨x, hx, hover⟩ := h
      rw [List.mem_append, List.mem_singleton] at hx
      have hmem : x ∈ l := hx.resolve_right fun hxy => hy (hxy ▸ hover)
      obtain ⟨z, hz, hlatest⟩ := ih ⟨x, hmem, hover⟩
      exact ⟨z, hz, isLatest_concat_iff.mpr (Or.inr ⟨hlatest, hy⟩)⟩

end WorkflowOperator
