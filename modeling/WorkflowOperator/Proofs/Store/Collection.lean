import WorkflowOperator.Proofs.Store.Growth

/-!
# What collection takes and what it leaves

A collection takes nothing but objects that an owner to be collected owns, directly or through other
objects, and it leaves none of those. The rounds of a collection keep both: whatever identifiers are
added to the collected ones belong to objects that were taken.
-/

namespace WorkflowOperator.Store

variable {uids : List String} {objects : SortedMap ObjectKey Resource} {key : ObjectKey} {r : Resource}

lemma get?_owned (uids : List String) (objects : SortedMap ObjectKey Resource) (key : ObjectKey) :
    (owned uids objects).get? key = (objects.get? key).filter fun r => r.isOwnedBy uids :=
  SortedMap.get?_filter _ _ _

lemma get?_notOwned (uids : List String) (objects : SortedMap ObjectKey Resource)
    (key : ObjectKey) :
    (notOwned uids objects).get? key = (objects.get? key).filter fun r => !r.isOwnedBy uids :=
  SortedMap.get?_filter _ _ _

lemma get?_notOwned_eq_some (h : (notOwned uids objects).get? key = some r) :
    objects.get? key = some r ∧ r.isOwnedBy uids = false := by
  rw [get?_notOwned, Option.filter_eq_some_iff] at h
  simpa using h

lemma isOwnedBy_of_append {more : List String} (h : r.isOwnedBy (uids ++ more) = false) :
    r.isOwnedBy uids = false := by
  rw [Resource.isOwnedBy, List.any_eq_false] at h ⊢
  intro o ho hmem
  apply h o ho
  rw [List.contains_eq_mem, decide_eq_true_eq] at hmem ⊢
  exact List.mem_append_left _ hmem

lemma get?_of_get?_collectRounds (h : (collectRounds uids objects).2.get? key = some r) :
    objects.get? key = some r := by
  induction uids, objects using collectRounds.induct with
  | case1 uids objects hnone =>
    rwa [collectRounds, dif_pos hnone] at h
  | case2 uids objects hsome found _ _ _ ih =>
    rw [collectRounds, dif_neg hsome] at h
    exact (get?_notOwned_eq_some (ih h)).1

lemma isOwnedBy_of_get?_collectRounds (h : (collectRounds uids objects).2.get? key = some r) :
    r.isOwnedBy uids = false := by
  induction uids, objects using collectRounds.induct with
  | case1 uids objects hnone =>
    rw [collectRounds, dif_pos hnone] at h
    have hgone := SortedMap.get?_of_size_eq_zero hnone key
    rw [get?_owned, h, Option.filter_eq_none_iff] at hgone
    simpa using hgone
  | case2 uids objects hsome found _ _ _ ih =>
    rw [collectRounds, dif_neg hsome] at h
    exact isOwnedBy_of_append (ih h)

/-- An identifier that no object bears and that is not collected stays so, and what it alone owns is
left. -/
lemma get?_collectRounds_of_safe {safe : String} (huids : safe ∉ uids)
    (hfresh : ∀ key r, objects.get? key = some r → r.metadata.uid ≠ some safe)
    (h : objects.get? key = some r) (howners : ∀ o ∈ r.metadata.owners, o.uid = safe) :
    (collectRounds uids objects).2.get? key = some r := by
  induction uids, objects using collectRounds.induct with
  | case1 uids objects hnone => rwa [collectRounds, dif_pos hnone]
  | case2 uids objects hsome found _ _ _ ih =>
    rw [collectRounds, dif_neg hsome]
    have hkept : (notOwned uids objects).get? key = some r := by
      have hfree : r.isOwnedBy uids = false := by
        rw [Resource.isOwnedBy, List.any_eq_false]
        intro o ho hmem
        rw [List.contains_eq_mem, decide_eq_true_eq, howners o ho] at hmem
        exact huids hmem
      rw [get?_notOwned, h, Option.filter_some, if_pos (by simpa using hfree)]
    have huids' : safe ∉ uids ++ found.values.filterMap (·.metadata.uid) := by
      intro hmem
      rcases List.mem_append.mp hmem with hmem | hmem
      · exact huids hmem
      · obtain ⟨r', hr', huid⟩ := List.mem_filterMap.mp hmem
        obtain ⟨key', hkey'⟩ := (SortedMap.mem_values_iff _ _).mp hr'
        have hfound : (owned uids objects).get? key' = some r' := hkey'
        rw [get?_owned, Option.filter_eq_some_iff] at hfound
        exact hfresh key' r' hfound.1 huid
    refine ih huids' ?_ hkept
    intro key' r' hr'
    exact hfresh key' r' (get?_notOwned_eq_some hr').1

/-! ### Collection from a store -/

variable {s : Store} {uid : String}

lemma get?_collect_of_safe {safe : String} (hne : safe ≠ uid)
    (hfresh : ∀ key r, s.objects.get? key = some r → r.metadata.uid ≠ some safe)
    (h : s.objects.get? key = some r) (howners : ∀ o ∈ r.metadata.owners, o.uid = safe) :
    (s.collect uid).2.objects.get? key = some r := by
  apply get?_collectRounds_of_safe _ hfresh h howners
  rwa [List.mem_singleton]

lemma get?_collect_of_owned (h : s.objects.get? key = some r) (howned : r.isOwnedBy [uid] = true) :
    (s.collect uid).2.objects.get? key = none := by
  cases hleft : (s.collect uid).2.objects.get? key with
  | none => rfl
  | some r' =>
    have hr' : (collectRounds [uid] s.objects).2.get? key = some r' := hleft
    have hsame := get?_of_get?_collectRounds hr'
    rw [h, Option.some.injEq] at hsame
    subst hsame
    rw [isOwnedBy_of_get?_collectRounds hr'] at howned
    cases howned

end WorkflowOperator.Store
