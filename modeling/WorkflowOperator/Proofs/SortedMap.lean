import Mathlib.Data.List.Induction
import Mathlib.Data.List.Nodup
import Mathlib.Tactic.Lemma
import WorkflowOperator.SortedMap

/-!
# Lookups in finite maps

What a map holds at a key is what its list of entries pairs with that key, since no key occurs
twice. From this follow the lookups in the parts of a map and in maps to which a value was put.
-/

namespace WorkflowOperator.SortedMap

variable {κ α : Type} [Ord κ]

@[simp] lemma get?_empty (k : κ) : (∅ : SortedMap κ α).get? k = none := rfl

lemma contains_eq_false_iff (m : SortedMap κ α) (k : κ) :
    m.contains k = false ↔ m.get? k = none := by
  unfold contains
  cases m.get? k <;> simp

lemma contains_eq_true_iff (m : SortedMap κ α) (k : κ) :
    m.contains k = true ↔ ∃ v, m.get? k = some v := by
  unfold contains
  rw [Option.isSome_iff_exists]

lemma pairwise_keys (m : SortedMap κ α) : m.keys.Pairwise fun a b => compare a b = .lt :=
  List.pairwise_map.mpr m.sorted

variable [Std.LawfulEqOrd κ]

lemma lookup_eq_some_iff {l : List (κ × α)} (hl : l.Pairwise fun a b => compare a.1 b.1 = .lt)
    (k : κ) (v : α) : lookup k l = some v ↔ (k, v) ∈ l := by
  induction l with
  | nil => simp [lookup]
  | cons e rest ih =>
    obtain ⟨k', v'⟩ := e
    rw [List.pairwise_cons] at hl
    rw [lookup, List.mem_cons, Prod.mk.injEq]
    by_cases hk : k = k'
    · subst hk
      have hself : compare k k = .eq := Std.ReflCmp.compare_self
      rw [if_pos hself, Option.some.injEq]
      constructor
      · intro hv
        exact Or.inl ⟨rfl, hv.symm⟩
      · rintro (⟨-, hv⟩ | hmem)
        · exact hv.symm
        · have hlt : compare k k = .lt := hl.1 (k, v) hmem
          rw [hself] at hlt
          cases hlt
    · have hne : compare k k' ≠ .eq := fun h => hk (Std.LawfulEqCmp.eq_of_compare h)
      rw [if_neg hne, ih hl.2]
      simp [hk]

lemma get?_eq_some_iff (m : SortedMap κ α) (k : κ) (v : α) :
    m.get? k = some v ↔ (k, v) ∈ m.entries := lookup_eq_some_iff m.sorted k v

lemma nodup_keys (m : SortedMap κ α) : (m.toList.map Prod.fst).Nodup := by
  rw [List.Nodup, List.pairwise_map]
  refine m.sorted.imp ?_
  intro a b hlt heq
  have hself : compare a.1 b.1 = .eq := by
    rw [heq]
    exact Std.ReflCmp.compare_self
  rw [hself] at hlt
  cases hlt

lemma get?_filter (m : SortedMap κ α) (p : κ → α → Bool) (k : κ) :
    (m.filter p).get? k = (m.get? k).filter (p k) := by
  apply Option.ext
  intro v
  rw [get?_eq_some_iff, Option.filter_eq_some_iff, get?_eq_some_iff]
  simp [filter]

lemma mem_keys_iff (m : SortedMap κ α) (k : κ) : k ∈ m.keys ↔ ∃ v, m.get? k = some v := by
  simp only [keys, List.mem_map, get?_eq_some_iff]
  constructor
  · rintro ⟨⟨k, v⟩, hmem, rfl⟩
    exact ⟨v, hmem⟩
  · rintro ⟨v, hmem⟩
    exact ⟨(k, v), hmem, rfl⟩

lemma mem_values_iff (m : SortedMap κ α) (v : α) : v ∈ m.values ↔ ∃ k, m.get? k = some v := by
  simp only [values, List.mem_map, get?_eq_some_iff]
  constructor
  · rintro ⟨⟨k, v⟩, hmem, rfl⟩
    exact ⟨k, hmem⟩
  · rintro ⟨k, hmem⟩
    exact ⟨(k, v), hmem, rfl⟩

lemma size_eq_length {m : SortedMap κ α} {l : List κ} (hnodup : l.Nodup)
    (h : ∀ k, k ∈ m.keys ↔ k ∈ l) : m.size = l.length := by
  have hperm : m.keys.Perm l := (List.perm_ext_iff_of_nodup m.nodup_keys hnodup).mpr h
  rw [← hperm.length_eq, keys, List.length_map]
  rfl

lemma get?_of_size_eq_zero {m : SortedMap κ α} (h : m.size = 0) (k : κ) : m.get? k = none := by
  rw [Option.eq_none_iff_forall_not_mem]
  intro v hv
  have hmem := (get?_eq_some_iff m k v).mp hv
  rw [size, List.length_eq_zero_iff] at h
  rw [h] at hmem
  cases hmem

lemma size_eq_zero_iff {m : SortedMap κ α} : m.size = 0 ↔ ∀ k, m.get? k = none := by
  constructor
  · exact get?_of_size_eq_zero
  · intro h
    rw [size, List.length_eq_zero_iff, List.eq_nil_iff_forall_not_mem]
    rintro ⟨k, v⟩ hmem
    rw [← get?_eq_some_iff, h] at hmem
    cases hmem

lemma ext_get? [Std.TransOrd κ] {m m' : SortedMap κ α} (h : ∀ k, m.get? k = m'.get? k) :
    m = m' := by
  apply ext_entries
  have hnodup : ∀ m : SortedMap κ α, m.entries.Nodup :=
    fun m => List.Nodup.of_map Prod.fst m.nodup_keys
  have hperm : m.entries.Perm m'.entries := by
    refine (List.perm_ext_iff_of_nodup (hnodup m) (hnodup m')).mpr ?_
    rintro ⟨k, v⟩
    rw [← get?_eq_some_iff, ← get?_eq_some_iff, h]
  refine hperm.eq_of_pairwise ?_ m.sorted m'.sorted
  intro a b _ _ hab hba
  rw [Std.OrientedCmp.gt_of_lt hba] at hab
  cases hab

lemma keys_eq_of_mem_iff {β : Type} [Std.TransOrd κ] {m : SortedMap κ α} {m' : SortedMap κ β}
    (h : ∀ k, k ∈ m.keys ↔ k ∈ m'.keys) : m.keys = m'.keys := by
  have hperm : m.keys.Perm m'.keys :=
    (List.perm_ext_iff_of_nodup m.nodup_keys m'.nodup_keys).mpr h
  refine hperm.eq_of_pairwise (fun a b _ _ hab hba => ?_) m.pairwise_keys m'.pairwise_keys
  exact absurd hba (Std.OrientedCmp.not_lt_of_lt hab)

lemma contains_insert [Std.TransOrd κ] (m : SortedMap κ α) (k k' : κ) (v : α) :
    (m.insert k v).contains k' = true ↔ k' = k ∨ m.contains k' = true := by
  unfold contains
  by_cases h : k' = k
  · subst h
    simp
  · rw [get?_insert_of_ne m h]
    simp [h]

lemma mem_ofList [Std.TransOrd κ] {l : List (κ × α)} {e : κ × α} (h : e ∈ (ofList l).entries) :
    e ∈ l := by
  have hfold : ∀ m : SortedMap κ α, e ∈ (l.foldl (fun m e => m.insert e.1 e.2) m).entries →
      e ∈ m.entries ∨ e ∈ l := by
    clear h
    induction l with
    | nil =>
      intro m h
      exact Or.inl h
    | cons e' l ih =>
      intro m h
      rcases ih _ h with hput | hl
      · rcases mem_put hput with heq | hmem
        · exact Or.inr (heq ▸ List.mem_cons_self)
        · exact Or.inl hmem
      · exact Or.inr (List.mem_cons_of_mem _ hl)
  rcases hfold ∅ h with hempty | hl
  · cases hempty
  · exact hl

/-! ### Maps of lists of entries -/

variable [Std.TransOrd κ]

lemma ofList_concat (l : List (κ × α)) (e : κ × α) :
    ofList (l ++ [e]) = (ofList l).insert e.1 e.2 := by
  simp [ofList, List.foldl_append]

lemma mem_keys_ofList {l : List (κ × α)} {k : κ} : k ∈ (ofList l).keys ↔ k ∈ l.map Prod.fst := by
  rw [mem_keys_iff, ← contains_eq_true_iff]
  induction l using List.reverseRecOn with
  | nil =>
    rw [contains_eq_true_iff]
    constructor
    · rintro ⟨v, hv⟩
      cases hv
    · intro h
      cases h
  | append_singleton l e ih =>
    rw [ofList_concat, contains_insert, ih, List.map_append, List.mem_append, or_comm]
    simp

lemma get?_ofList_eq_none_iff {l : List (κ × α)} {k : κ} :
    (ofList l).get? k = none ↔ k ∉ l.map Prod.fst := by
  rw [← mem_keys_ofList, mem_keys_iff, Option.eq_none_iff_forall_ne_some, not_exists]

lemma get?_ofList {l : List (κ × α)} (h : (l.map Prod.fst).Nodup) {k : κ} {v : α} :
    (ofList l).get? k = some v ↔ (k, v) ∈ l := by
  induction l using List.reverseRecOn with
  | nil =>
    constructor
    · intro h
      cases h
    · intro h
      cases h
  | append_singleton l e ih =>
    rw [List.map_append, List.nodup_append] at h
    obtain ⟨hl, -, hapart⟩ := h
    rw [ofList_concat, List.mem_append, List.mem_singleton]
    by_cases hk : k = e.1
    · subst hk
      rw [get?_insert_self, Option.some.injEq]
      constructor
      · rintro rfl
        exact Or.inr rfl
      · rintro (hmem | heq)
        · exact absurd rfl (hapart _ (List.mem_map_of_mem hmem) _ (List.mem_singleton_self e.1))
        · rw [← heq]
    · rw [get?_insert_of_ne _ hk, ih hl]
      constructor
      · exact Or.inl
      · rintro (hmem | rfl)
        · exact hmem
        · exact absurd rfl hk

end WorkflowOperator.SortedMap
