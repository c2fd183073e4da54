import Mathlib.Data.List.Nodup
import WorkflowOperator.Proofs.Latest
import WorkflowOperator.Resource.Basic

/-!
# Owners set one after the other

An object may be given owners again and again, the same or others. It keeps one reference for each
identifier, the one that was set last: first come the references that it had and that were never set, in
their order, and behind them the others in the order of their last calls. Nothing else of it changes.
-/

namespace WorkflowOperator.Resource

/-- An object with references set on it one after the other. -/
def withOwners (calls : List OwnerReference) (r : Resource) : Resource :=
  calls.foldl (fun r owner => r.withOwner owner) r

/-- Whether a reference is the last that was set for its identifier. -/
def IsLastSet (calls : List OwnerReference) (o : OwnerReference) : Prop :=
  IsLatest (fun o' => o'.uid = o.uid) calls o

/-- Whether two references are the last set for two identifiers, the one before the other. -/
def IsSetBefore (calls : List OwnerReference) (o o' : OwnerReference) : Prop :=
  ∃ before after, calls = before ++ o :: after ∧ (∀ x ∈ after, x.uid ≠ o.uid) ∧ IsLastSet after o'

variable {initial calls owners : List OwnerReference} {o o' owner : OwnerReference} {r : Resource}

/-! ### The last calls -/

lemma isLastSet_concat_iff : IsLastSet (calls ++ [owner]) o ↔
    o = owner ∨ (IsLastSet calls o ∧ o.uid ≠ owner.uid) :=
  isLatest_concat_iff.trans (or_congr_right (and_congr_right fun _ => not_congr eq_comm))

lemma exists_isLastSet {uid : String} (h : uid ∈ calls.map OwnerReference.uid) :
    ∃ o, o.uid = uid ∧ IsLastSet calls o := by
  have hset : ∃ o ∈ calls, (fun o => o.uid = uid) o := List.mem_map.mp h
  obtain ⟨o, rfl, hlast⟩ := exists_isLatest hset
  exact ⟨o, rfl, hlast⟩

lemma IsSetBefore.uid_ne (h : IsSetBefore calls o o') : o.uid ≠ o'.uid := by
  obtain ⟨before, after, -, hafter, hlast⟩ := h
  exact (hafter o' hlast.mem).symm

lemma IsSetBefore.concat (h : IsSetBefore calls o o') (ho : o.uid ≠ owner.uid)
    (ho' : o'.uid ≠ owner.uid) : IsSetBefore (calls ++ [owner]) o o' := by
  obtain ⟨before, after, rfl, hafter, hlast⟩ := h
  refine ⟨before, after ++ [owner], by simp, ?_, isLastSet_concat_iff.mpr (Or.inr ⟨hlast, ho'⟩)⟩
  rw [List.forall_mem_append, List.forall_mem_singleton]
  exact ⟨hafter, ho.symm⟩

lemma IsLastSet.isSetBefore_concat (h : IsLastSet calls o) (ho : o.uid ≠ owner.uid) :
    IsSetBefore (calls ++ [owner]) o owner := by
  obtain ⟨before, after, rfl, hafter⟩ := h
  refine ⟨before, after ++ [owner], by simp, ?_, isLastSet_concat_iff.mpr (Or.inl rfl)⟩
  rw [List.forall_mem_append, List.forall_mem_singleton]
  exact ⟨hafter, ho.symm⟩

/-! ### One call and a sequence of calls -/

/-- How the owners of an object come from those that it had and from the references set since: in front
those whose identifiers were never set, behind them the last for each of the others, in the order of the
calls. -/
def AreSetFrom (initial calls owners : List OwnerReference) : Prop :=
  ∃ latest, owners = initial.filter (fun o => o.uid ∉ calls.map OwnerReference.uid) ++ latest ∧
    (∀ o, o ∈ latest ↔ IsLastSet calls o) ∧ latest.Pairwise (IsSetBefore calls)

lemma areSetFrom_nil (initial : List OwnerReference) : AreSetFrom initial [] initial :=
  ⟨[], by simp, fun o => iff_of_false List.not_mem_nil not_isLatest_nil, .nil⟩

lemma AreSetFrom.withOwner (h : AreSetFrom initial calls r.metadata.owners) (owner : OwnerReference) :
    AreSetFrom initial (calls ++ [owner]) (r.withOwner owner).metadata.owners := by
  obtain ⟨latest, howners, hmem, hordered⟩ := h
  have hkept : ∀ o, o ∈ latest.filter (fun o => o.uid != owner.uid) ↔
      IsLastSet calls o ∧ o.uid ≠ owner.uid := by
    intro o
    rw [List.mem_filter, bne_iff_ne, hmem]
  -- the call takes the owner out of both parts and puts it at the end
  refine ⟨latest.filter (fun o => o.uid != owner.uid) ++ [owner], ?_, fun o => ?_, ?_⟩
  · have hnever : (fun o : OwnerReference => decide (o.uid ∉ (calls ++ [owner]).map OwnerReference.uid)) =
        fun o => o.uid != owner.uid && decide (o.uid ∉ calls.map OwnerReference.uid) := by
      funext o
      simp [not_or, Bool.and_comm, bne, beq_eq_decide]
    rw [Resource.withOwner, howners, List.filter_append, List.filter_filter, hnever,
      List.append_assoc]
  · rw [List.mem_append, List.mem_singleton, hkept, or_comm, isLastSet_concat_iff]
  · rw [List.pairwise_append]
    refine ⟨?_, List.pairwise_singleton _ _, ?_⟩
    · refine (hordered.filter _).imp_of_mem fun {a b} ha hb hab => ?_
      exact hab.concat ((hkept a).mp ha).2 ((hkept b).mp hb).2
    · intro a ha b hb
      obtain ⟨hlast, hne⟩ := (hkept a).mp ha
      rw [List.mem_singleton.mp hb]
      exact hlast.isSetBefore_concat hne

lemma withOwners_concat (calls : List OwnerReference) (owner : OwnerReference) (r : Resource) :
    r.withOwners (calls ++ [owner]) = (r.withOwners calls).withOwner owner := by
  simp [withOwners, List.foldl_append]

lemma areSetFrom_withOwners (calls : List OwnerReference) (r : Resource) :
    AreSetFrom r.metadata.owners calls (r.withOwners calls).metadata.owners := by
  induction calls using List.reverseRecOn with
  | nil => exact areSetFrom_nil _
  | append_singleton calls owner ih =>
    rw [withOwners_concat]
    exact ih.withOwner owner

lemma withOwners_eq (calls : List OwnerReference) (r : Resource) : r.withOwners calls =
    { r with metadata := { r.metadata with owners := (r.withOwners calls).metadata.owners } } := by
  induction calls using List.reverseRecOn with
  | nil => rfl
  | append_singleton calls owner ih =>
    rw [withOwners_concat, Resource.withOwner, ih]

lemma withOwner_withOwner (owner : OwnerReference) (r : Resource) :
    (r.withOwner owner).withOwner owner = r.withOwner owner := by
  simp [Resource.withOwner, List.filter_append, List.filter_filter]

/-! ### What the owners are -/

lemma IsLastSet.uid_mem (h : IsLastSet calls o) : o.uid ∈ calls.map OwnerReference.uid :=
  List.mem_map_of_mem h.mem

lemma AreSetFrom.mem_iff (h : AreSetFrom initial calls owners) :
    o ∈ owners ↔ IsLastSet calls o ∨ (o ∈ initial ∧ o.uid ∉ calls.map OwnerReference.uid) := by
  obtain ⟨latest, rfl, hmem, -⟩ := h
  rw [List.mem_append, List.mem_filter, decide_eq_true_iff, hmem, or_comm]

lemma AreSetFrom.mem_uids_iff (h : AreSetFrom initial calls owners) {uid : String} :
    uid ∈ owners.map OwnerReference.uid ↔
      uid ∈ initial.map OwnerReference.uid ∨ uid ∈ calls.map OwnerReference.uid := by
  constructor
  · intro huid
    obtain ⟨o, ho, rfl⟩ := List.mem_map.mp huid
    rcases h.mem_iff.mp ho with hlast | ⟨hinitial, -⟩
    · exact Or.inr hlast.uid_mem
    · exact Or.inl (List.mem_map_of_mem hinitial)
  · intro huid
    by_cases hset : uid ∈ calls.map OwnerReference.uid
    · obtain ⟨o, rfl, hlast⟩ := exists_isLastSet hset
      exact List.mem_map_of_mem (h.mem_iff.mpr (Or.inl hlast))
    · obtain ⟨o, ho, rfl⟩ := List.mem_map.mp (huid.resolve_right hset)
      exact List.mem_map_of_mem (h.mem_iff.mpr (Or.inr ⟨ho, hset⟩))

lemma AreSetFrom.nodup (h : AreSetFrom initial calls owners)
    (hinitial : (initial.map OwnerReference.uid).Nodup) :
    (owners.map OwnerReference.uid).Nodup := by
  obtain ⟨latest, rfl, hmem, hordered⟩ := h
  rw [List.map_append, List.nodup_append]
  refine ⟨hinitial.sublist (List.filter_sublist.map _), ?_, ?_⟩
  · exact List.pairwise_map.mpr (hordered.imp IsSetBefore.uid_ne)
  · intro uid hnever uid' hset heq
    obtain ⟨o, ho, rfl⟩ := List.mem_map.mp hnever
    obtain ⟨o', ho', rfl⟩ := List.mem_map.mp hset
    have hnot : o.uid ∉ calls.map OwnerReference.uid := of_decide_eq_true (List.mem_filter.mp ho).2
    exact hnot (heq ▸ ((hmem o').mp ho').uid_mem)

/-- What has become of an object on which references were set: one for each identifier that it had or was
given, each the last one, those never set in front in their order and the others behind in the order of
their last calls; a repeated last call changes nothing, and nothing but the owners is changed. -/
structure IsOwnedSince (calls : List OwnerReference) (r r' : Resource) : Prop where
  distinct : (r'.metadata.owners.map OwnerReference.uid).Nodup
  uids : ∀ uid, uid ∈ r'.metadata.owners.map OwnerReference.uid ↔
    uid ∈ r.metadata.owners.map OwnerReference.uid ∨ uid ∈ calls.map OwnerReference.uid
  references : ∀ o, o ∈ r'.metadata.owners ↔
    IsLastSet calls o ∨ (o ∈ r.metadata.owners ∧ o.uid ∉ calls.map OwnerReference.uid)
  order : AreSetFrom r.metadata.owners calls r'.metadata.owners
  again : ∀ owner, calls.getLast? = some owner → r'.withOwner owner = r'
  key : r'.key = r.key
  rest : r' = { r with metadata := { r.metadata with owners := r'.metadata.owners } }

/-- Of the references set for one identifier the object keeps the last. -/
theorem last_owner_set_is_kept (h : (r.metadata.owners.map OwnerReference.uid).Nodup)
    (calls : List OwnerReference) : IsOwnedSince calls r (r.withOwners calls) where
  distinct := (areSetFrom_withOwners calls r).nodup h
  uids := fun _ => (areSetFrom_withOwners calls r).mem_uids_iff
  references := fun _ => (areSetFrom_withOwners calls r).mem_iff
  order := areSetFrom_withOwners calls r
  again := fun owner hlast => by
    obtain ⟨before, rfl⟩ := List.getLast?_eq_some_iff.mp hlast
    rw [withOwners_concat, withOwner_withOwner]
  key := by
    rw [withOwners_eq]
    rfl
  rest := withOwners_eq calls r

def controller (name uid : String) : OwnerReference := ⟨"v1", "Workflow", name, uid, true, true⟩

def sharedAccount : Resource :=
  let key : ObjectKey := ⟨.serviceAccount, "training", some "lab"⟩
  let owners := [controller "first" "1f0a", controller "second" "2b7c", controller "third" "3c9d"]
  ⟨{ ObjectMeta.of key ∅ with owners := owners }, .serviceAccount⟩

/-- The first owner is set under another name between two calls for a new one. -/
def renamings : List OwnerReference :=
  [controller "fourth" "4d1e", controller "fore" "1f0a", controller "forth" "4d1e"]

theorem renamed_owners_are_kept :
    (sharedAccount.metadata.owners.map OwnerReference.uid).Nodup ∧
    IsOwnedSince renamings sharedAccount (sharedAccount.withOwners renamings) ∧
    (sharedAccount.withOwners renamings).metadata.owners = [controller "second" "2b7c",
      controller "third" "3c9d", controller "fore" "1f0a", controller "forth" "4d1e"] := by
  have hdistinct : (sharedAccount.metadata.owners.map OwnerReference.uid).Nodup := by decide
  exact ⟨hdistinct, last_owner_set_is_kept hdistinct renamings, by decide⟩

end WorkflowOperator.Resource
