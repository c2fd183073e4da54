import WorkflowOperator.Proofs.SortedMap
import WorkflowOperator.Store.Collection

/-!
# Stores that grow

A store changes under creations in one way only: objects are put at keys where none was, and each of
them is written down in the journal. `putAll` is the store after a list of such creations, and the
lemmas say what it holds at every key and what its journal is.
-/

namespace WorkflowOperator

/-- Stamps that number the objects and say nothing of the time. -/
def Stamp.numbered (n : Nat) : Stamp := ⟨"object-" ++ Nat.repr n, default⟩

lemma uid_numbered_ne {uid : String} (h : uid.toList.head? ≠ some 'o') (n : Nat) :
    (Stamp.numbered n).uid ≠ uid := by
  rintro rfl
  rw [Stamp.numbered, String.toList_append] at h
  simp at h

lemma uid_numbered_injective : Function.Injective fun n => (Stamp.numbered n).uid := by
  intro m n h
  rw [← String.toList_inj] at h
  simp only [Stamp.numbered, String.toList_append, List.append_cancel_left_eq, String.toList_inj] at h
  exact Text.toString_injective h

namespace Store

variable (stamps : Nat → Stamp)

def putAll : List Resource → Store → Store
  | [], s => s
  | r :: rest, s => putAll rest (s.put (stamps s.journal.length) r)

/-- What the creation of the given objects adds to a journal with so many entries. -/
def entriesFrom (n : Nat) (made : List Resource) : List JournalEntry :=
  made.mapIdx fun i r => ⟨r.key, stamps (n + i)⟩

lemma putAll_append (made more : List Resource) (s : Store) :
    putAll stamps (made ++ more) s = putAll stamps more (putAll stamps made s) := by
  induction made generalizing s with
  | nil => rfl
  | cons r rest ih => exact ih _

lemma journal_putAll (made : List Resource) (s : Store) :
    (putAll stamps made s).journal = s.journal ++ entriesFrom stamps s.journal.length made := by
  induction made generalizing s with
  | nil => simp [putAll, entriesFrom]
  | cons r rest ih =>
    rw [putAll, ih]
    simp [put, entriesFrom, List.mapIdx_cons, Nat.add_comm, Nat.add_left_comm]

lemma keys_entriesFrom (n : Nat) (made : List Resource) :
    (entriesFrom stamps n made).map JournalEntry.key = made.map Resource.key := by
  apply List.ext_getElem <;> simp [entriesFrom]

lemma get?_put_self (s : Store) (stamp : Stamp) (r : Resource) :
    (s.put stamp r).objects.get? r.key = some (r.stamped stamp) :=
  SortedMap.get?_insert_self _ _ _

lemma get?_put_of_ne (s : Store) (stamp : Stamp) {r : Resource} {key : ObjectKey}
    (h : key ≠ r.key) : (s.put stamp r).objects.get? key = s.objects.get? key :=
  SortedMap.get?_insert_of_ne _ h _

lemma contains_put (s : Store) (stamp : Stamp) (r : Resource) (key : ObjectKey) :
    (s.put stamp r).contains key = true ↔ key = r.key ∨ s.contains key = true :=
  SortedMap.contains_insert _ _ _ _

lemma contains_putAll (made : List Resource) (s : Store) (key : ObjectKey) :
    (putAll stamps made s).contains key = true ↔
      key ∈ made.map Resource.key ∨ s.contains key = true := by
  induction made generalizing s with
  | nil => simp [putAll]
  | cons r rest ih =>
    rw [putAll, ih, contains_put, List.map_cons, List.mem_cons]
    tauto

lemma get?_putAll_of_notMem {made : List Resource} {key : ObjectKey}
    (h : key ∉ made.map Resource.key) (s : Store) :
    (putAll stamps made s).objects.get? key = s.objects.get? key := by
  induction made generalizing s with
  | nil => rfl
  | cons r rest ih =>
    rw [List.map_cons, List.mem_cons, not_or] at h
    rw [putAll, ih h.2, get?_put_of_ne _ _ h.1]

lemma get?_putAll_getElem {made : List Resource} (h : (made.map Resource.key).Nodup) (s : Store)
    (i : Nat) (hi : i < made.length) :
    (putAll stamps made s).objects.get? made[i].key =
      some (made[i].stamped (stamps (s.journal.length + i))) := by
  induction made generalizing s i with
  | nil => simp at hi
  | cons r rest ih =>
    rw [List.map_cons, List.nodup_cons] at h
    rw [putAll]
    cases i with
    | zero =>
      rw [List.getElem_cons_zero, get?_putAll_of_notMem stamps h.1, get?_put_self]
      rfl
    | succ i =>
      rw [List.getElem_cons_succ, ih h.2]
      simp [put, Nat.add_assoc, Nat.add_comm 1]

/-- A store with the given objects created in it: what was there is unchanged, each new object is
where it belongs with the stamp of its creation, nothing else has come, and the journal tells the
creations in order. -/
structure Gained (s s' : Store) (made : List Resource) : Prop where
  kept : ∀ key r, s.objects.get? key = some r → s'.objects.get? key = some r
  added : ∀ i (hi : i < made.length),
    s'.objects.get? made[i].key = some (made[i].stamped (stamps (s.journal.length + i)))
  nothingElse : ∀ key, key ∉ made.map Resource.key →
    s'.objects.get? key = s.objects.get? key
  journal : s'.journal = s.journal ++ entriesFrom stamps s.journal.length made

lemma gained_putAll {s : Store} {made : List Resource} (hnew : ∀ r ∈ made, s.contains r.key = false)
    (hkeys : (made.map Resource.key).Nodup) : Gained stamps s (putAll stamps made s) made where
  kept := by
    intro key r hr
    rw [get?_putAll_of_notMem stamps _ s, hr]
    intro hmem
    obtain ⟨r', hr', rfl⟩ := List.mem_map.mp hmem
    have hnone := (SortedMap.contains_eq_false_iff _ _).mp (hnew r' hr')
    rw [hr] at hnone
    cases hnone
  added := get?_putAll_getElem stamps hkeys s
  nothingElse := fun key h => get?_putAll_of_notMem stamps h s
  journal := journal_putAll stamps made s

lemma get?_of_gained {s s' : Store} {made : List Resource} (h : Gained stamps s s' made)
    {r : Resource} (hr : r ∈ made) :
    ∃ n, s'.objects.get? r.key = some (r.stamped (stamps n)) := by
  obtain ⟨i, hi, rfl⟩ := List.mem_iff_getElem.mp hr
  exact ⟨_, h.added i hi⟩

/-- Whether every object got its identifier when it was created. -/
def IsStamped (s : Store) : Prop :=
  ∀ key r, s.objects.get? key = some r → ∃ n, r.metadata.uid = some (stamps n).uid

namespace IsStamped

variable {stamps} {s : Store}

lemma empty : IsStamped stamps .empty := fun _ _ hr => nomatch hr

lemma put (h : IsStamped stamps s) (n : Nat) (r : Resource) : IsStamped stamps (s.put (stamps n) r) := by
  intro key r' hr'
  by_cases hkey : key = r.key
  · rw [hkey, get?_put_self, Option.some.injEq] at hr'
    exact ⟨n, hr' ▸ rfl⟩
  · rw [get?_put_of_ne s _ hkey] at hr'
    exact h key r' hr'

lemma putAll (h : IsStamped stamps s) (made : List Resource) :
    IsStamped stamps (s.putAll stamps made) := by
  induction made generalizing s with
  | nil => exact h
  | cons r rest ih => exact ih (h.put _ r)

lemma uid_ne (h : IsStamped stamps s) {uid : String} (hfresh : ∀ n, (stamps n).uid ≠ uid)
    {key : ObjectKey} {r : Resource} (hr : s.objects.get? key = some r) :
    r.metadata.uid ≠ some uid := by
  obtain ⟨n, hn⟩ := h key r hr
  rw [hn, Ne, Option.some.injEq]
  exact hfresh n

end IsStamped

/-- Whether a store comes from another by the creation of the given objects, which are new to it and of
different keys. -/
structure GrownBy (s : Store) (made : List Resource) (s' : Store) : Prop where
  isNew : ∀ r ∈ made, s.contains r.key = false
  nodup : (made.map Resource.key).Nodup
  state : s' = s.putAll stamps made

section Growing
variable {stamps : Nat → Stamp} {s s' s'' : Store} {made more : List Resource}

lemma GrownBy.refl (s : Store) : s.GrownBy stamps [] s := ⟨by simp, .nil, rfl⟩

lemma grownBy_put {r : Resource} (h : s.contains r.key = false) :
    s.GrownBy stamps [r] (s.put (stamps s.journal.length) r) :=
  ⟨by simpa using h, by simp, rfl⟩

lemma GrownBy.trans (h : s.GrownBy stamps made s') (h' : s'.GrownBy stamps more s'') :
    s.GrownBy stamps (made ++ more) s'' := by
  obtain ⟨hnew, hnodup, rfl⟩ := h
  obtain ⟨hnew', hnodup', rfl⟩ := h'
  have hapart : ∀ r ∈ more, r.key ∉ made.map Resource.key ∧ s.contains r.key = false := by
    intro r hr
    have hr' := hnew' r hr
    rw [Bool.eq_false_iff, Ne, contains_putAll, not_or, Bool.not_eq_true] at hr'
    exact hr'
  refine ⟨?_, ?_, (putAll_append stamps made more s).symm⟩
  · intro r hr
    rcases List.mem_append.mp hr with hr | hr
    · exact hnew r hr
    · exact (hapart r hr).2
  · rw [List.map_append]
    refine hnodup.append hnodup' ?_
    intro key hmade hmore
    obtain ⟨r, hr, rfl⟩ := List.mem_map.mp hmore
    exact (hapart r hr).1 hmade

lemma GrownBy.gained (h : s.GrownBy stamps made s') : Gained stamps s s' made := by
  obtain ⟨hnew, hnodup, rfl⟩ := h
  exact gained_putAll stamps hnew hnodup

end Growing

/-! ### Stores up to stamps -/

/-- Whether two stores hold the same objects but for their uids and times of creation. -/
def AgreesUpToStamps (s s' : Store) : Prop :=
  ∀ key stamp, (s.objects.get? key).map (Resource.stamped stamp) =
    (s'.objects.get? key).map (Resource.stamped stamp)

lemma agreesUpToStamps_put {s s' : Store} (h : s.AgreesUpToStamps s') (stamp stamp' : Stamp)
    (r : Resource) : (s.put stamp r).AgreesUpToStamps (s'.put stamp' r) := by
  intro key t
  by_cases hkey : key = r.key
  · rw [hkey, get?_put_self, get?_put_self]
    rfl
  · rw [get?_put_of_ne s stamp hkey, get?_put_of_ne s' stamp' hkey]
    exact h key t

lemma agreesUpToStamps_putAll (stamps' : Nat → Stamp) (made : List Resource) {s s' : Store}
    (h : s.AgreesUpToStamps s') :
    (putAll stamps made s).AgreesUpToStamps (putAll stamps' made s') := by
  induction made generalizing s s' with
  | nil => exact h
  | cons r rest ih => exact ih (agreesUpToStamps_put h _ _ r)

end Store

end WorkflowOperator
