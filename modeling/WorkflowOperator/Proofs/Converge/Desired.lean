import Mathlib.Data.List.Forall2
import Mathlib.Data.List.Nodup
import WorkflowOperator.Converge.Plan
import WorkflowOperator.Proofs.Converge.Settling
import WorkflowOperator.Proofs.Manager.Files

/-!
# The wanted objects of a workflow

The objects of a plan in the order of their creation: which keys they have, that these keys differ,
and that a store takes them. Only the manager's files may fail to be made.
-/

namespace WorkflowOperator

namespace Workflow

/-- The keys of the objects of a workflow, from what is needed first on. -/
def dependencyOrder (w : Workflow) : List ObjectKey :=
  [w.keyOf .service w.serviceName, w.keyOf .serviceAccount w.serviceAccountName,
    w.keyOf .clusterRole w.clusterRoleName, w.keyOf .clusterRoleBinding w.clusterRoleName,
    w.keyOf .role w.roleName, w.keyOf .roleBinding w.roleName] ++
  (if w.hasInClusterRegistry then [w.keyOf .statefulSet w.registryName] else []) ++
  [w.keyOf .configMap w.managerName, w.keyOf .deployment w.managerName]

def filesKey (w : Workflow) : ObjectKey := w.keyOf .configMap w.managerName

/-- The objects that do not need the manager's files. -/
def objectsBeforeFiles (w : Workflow) : List Resource :=
  w.headlessService :: w.accessControl ++
    (if w.hasInClusterRegistry then [w.registrySet] else [])

/-- All objects of a workflow, with the given files of its manager. -/
def objectsWith (c : Config) (files : TextMap String) (w : Workflow) : List Resource :=
  w.objectsBeforeFiles ++ [w.object w.managerName (.configMap files), w.managerDeployment c]

def wanted (c : Config) (w : Workflow) : List Wanted :=
  w.objectsBeforeFiles.map .of ++ [w.wantedManagerFiles c, .of (w.managerDeployment c)]

variable (c : Config) (w : Workflow)

lemma allWanted_plan : allWanted (w.plan c) = w.wanted c := by
  unfold plan wanted objectsBeforeFiles allWanted
  cases w.hasInClusterRegistry <;> rfl

lemma keys_wanted : (w.wanted c).map Wanted.key = w.dependencyOrder := by
  unfold wanted objectsBeforeFiles dependencyOrder
  cases w.hasInClusterRegistry <;> rfl

lemma keys_objectsWith (files : TextMap String) :
    (w.objectsWith c files).map Resource.key = w.dependencyOrder := by
  unfold objectsWith objectsBeforeFiles dependencyOrder
  cases w.hasInClusterRegistry <;> rfl

lemma wantedKeys_eq : w.wantedKeys c = w.dependencyOrder := by
  rw [← keys_wanted c w, ← allWanted_plan]
  unfold wantedKeys allWanted
  rw [List.map_flatMap]

lemma kinds_dependencyOrder :
    (w.dependencyOrder.map ObjectKey.kind) =
      [.service, .serviceAccount, .clusterRole, .clusterRoleBinding, .role, .roleBinding] ++
      (if w.hasInClusterRegistry then [.statefulSet] else []) ++ [.configMap, .deployment] := by
  unfold dependencyOrder
  cases w.hasInClusterRegistry <;> rfl

lemma nodup_dependencyOrder : w.dependencyOrder.Nodup := by
  apply List.Nodup.of_map ObjectKey.kind
  rw [kinds_dependencyOrder]
  cases w.hasInClusterRegistry <;> decide

variable {c w} in
lemma key_mem_dependencyOrder {files : TextMap String} {r : Resource}
    (h : r ∈ w.objectsWith c files) : r.key ∈ w.dependencyOrder := by
  rw [← keys_objectsWith c w files]
  exact List.mem_map_of_mem h

lemma nodup_keys_objectsWith (files : TextMap String) :
    ((w.objectsWith c files).map Resource.key).Nodup := by
  rw [keys_objectsWith]
  exact w.nodup_dependencyOrder

lemma isInScope_keyOf (kind : ResourceKind) (name : String) :
    (w.keyOf kind name).isInScope = true := by
  cases kind <;> rfl

lemma append_ne_empty {s t : String} (h : t ≠ "") : s ++ t ≠ "" := by
  intro he
  rw [String.append_eq_empty_iff] at he
  exact h he.2

lemma exists_of_mem_dependencyOrder {w : Workflow} {key : ObjectKey} (h : key ∈ w.dependencyOrder) :
    ∃ kind name, key = w.keyOf kind name ∧
      (name ∈ [w.name, w.clusterRoleName, w.roleName, w.managerName] ∨
        w.hasInClusterRegistry = true ∧ name = w.registryName) := by
  simp only [dependencyOrder, List.mem_append, List.mem_cons, List.not_mem_nil, or_false] at h
  rcases h with (h | h) | h
  · rcases h with rfl | rfl | rfl | rfl | rfl | rfl
    all_goals exact ⟨_, _, rfl, Or.inl (by simp [serviceName, serviceAccountName])⟩
  · split at h
    next hinside =>
      rw [List.mem_singleton] at h
      exact ⟨_, _, h, Or.inr ⟨hinside, rfl⟩⟩
    next => cases h
  · rcases h with rfl | rfl
    all_goals exact ⟨_, _, rfl, Or.inl (by simp)⟩

lemma isStorable_of_mem_dependencyOrder {w : Workflow} (hname : w.name ≠ "") {key : ObjectKey}
    (h : key ∈ w.dependencyOrder) : key.IsStorable := by
  have hcluster : w.clusterRoleName ≠ "" := append_ne_empty (by decide)
  have hrole : w.roleName ≠ "" := append_ne_empty (by decide)
  have hmanager : w.managerName ≠ "" := append_ne_empty (by decide)
  obtain ⟨kind, name, rfl, hown | ⟨-, rfl⟩⟩ := exists_of_mem_dependencyOrder h
  · refine ⟨?_, isInScope_keyOf w kind name⟩
    simp only [List.mem_cons, List.not_mem_nil, or_false] at hown
    rcases hown with rfl | rfl | rfl | rfl
    all_goals assumption
  · exact ⟨effectiveName_ne_empty _, isInScope_keyOf w kind _⟩

/-- What holds of each object that is made for a workflow holds of all of them. -/
lemma forall_mem_objectsWith {c : Config} {files : TextMap String} {w : Workflow}
    {P : Resource → Prop} (headlessService : P w.headlessService)
    (serviceAccount : P w.serviceAccount) (clusterRole : P w.clusterRole)
    (clusterRoleBinding : P w.clusterRoleBinding) (role : P w.role) (roleBinding : P w.roleBinding)
    (registrySet : w.hasInClusterRegistry = true → P w.registrySet)
    (configMap : P (w.object w.managerName (.configMap files)))
    (managerDeployment : P (w.managerDeployment c)) : ∀ r ∈ w.objectsWith c files, P r := by
  intro r h
  simp only [objectsWith, objectsBeforeFiles, accessControl, List.mem_append, List.mem_cons,
    List.not_mem_nil, or_false] at h
  rcases h with ((rfl | rfl | rfl | rfl | rfl | rfl) | h) | rfl | rfl
  case inl.inr =>
    split at h
    next hinside =>
      rw [List.mem_singleton] at h
      exact h ▸ registrySet hinside
    next => cases h
  all_goals assumption

lemma eq_object_of_mem_objectsWith {c : Config} {files : TextMap String} {w : Workflow}
    {r : Resource} (h : r ∈ w.objectsWith c files) : ∃ name body, r = w.object name body :=
  forall_mem_objectsWith (P := fun r => ∃ name body, r = w.object name body)
    ⟨_, _, rfl⟩ ⟨_, _, rfl⟩ ⟨_, _, rfl⟩ ⟨_, _, rfl⟩ ⟨_, _, rfl⟩ ⟨_, _, rfl⟩
    (fun _ => ⟨_, _, rfl⟩) ⟨_, _, rfl⟩ ⟨_, _, rfl⟩ r h

lemma labels_of_mem_objectsWith {c : Config} {files : TextMap String} {w : Workflow} {r : Resource}
    (h : r ∈ w.objectsWith c files) : r.metadata.labels = w.selector := by
  obtain ⟨name, body, rfl⟩ := eq_object_of_mem_objectsWith h
  rfl

lemma owners_of_mem_objectsWith {c : Config} {files : TextMap String} {w : Workflow} {r : Resource}
    (h : r ∈ w.objectsWith c files) : r.metadata.owners = [] := by
  obtain ⟨name, body, rfl⟩ := eq_object_of_mem_objectsWith h
  rfl

lemma owners_of_mem_objectsBeforeFiles {w : Workflow} {r : Resource}
    (h : r ∈ w.objectsBeforeFiles) : r.metadata.owners = [] := by
  have hr : r ∈ w.objectsWith .standard ∅ := List.mem_append_left _ h
  exact owners_of_mem_objectsWith hr

end Workflow

/-! ### Objects made for what a store lacks -/

/-- The given objects that a store lacks, each with its owner. -/
def Store.newFor (s : Store) (owner : OwnerReference) (objects : List Resource) : List Resource :=
  (objects.filter fun r => !s.contains r.key).map (Resource.withOwner owner)

/-- Whether a wanted object is the given one, or is of its key and not to be made. -/
def Store.Realizes (s : Store) (w : Wanted) (r : Resource) : Prop :=
  w.key = r.key ∧ (s.contains w.key = false → w.object = .ok r)

variable {s : Store} {owner : OwnerReference} {ws : List Wanted} {rs : List Resource}

lemma realizes_of (r : Resource) : s.Realizes (.of r) r := ⟨rfl, fun _ => rfl⟩

lemma madeFor_lacking (h : List.Forall₂ s.Realizes ws rs) :
    madeFor owner (s.lacking ws) = s.newFor owner rs := by
  induction h with
  | nil => rfl
  | @cons w r ws rs hw _ ih =>
    unfold Store.lacking Store.newFor madeFor at ih ⊢
    by_cases hs : s.contains w.key = true
    · have hr : s.contains r.key = true := hw.1 ▸ hs
      simpa [List.filter_cons, hs, hr] using ih
    · rw [Bool.not_eq_true] at hs
      have hr : s.contains r.key = false := hw.1 ▸ hs
      simpa [List.filter_cons, hs, hr, hw.2 hs, Except.toOption] using ih

lemma canSettle_of_realizes (h : List.Forall₂ s.Realizes ws rs)
    (hnodup : (ws.map Wanted.key).Nodup) (hstorable : ∀ w ∈ ws, w.key.IsStorable) :
    s.CanSettle ws := by
  refine ⟨hnodup, hstorable, ?_⟩
  clear hnodup hstorable
  induction h with
  | nil => simp
  | @cons v r vs rs hv _ ih =>
    intro w hw hs
    rcases List.mem_cons.mp hw with rfl | hw
    · exact ⟨r, hv.2 hs⟩
    · exact ih w hw hs

lemma keys_lacking : (s.lacking ws).map Wanted.key =
    (ws.map Wanted.key).filter fun key => !s.contains key := by
  rw [List.filter_map]
  rfl

lemma keys_having : (s.having ws).map Wanted.key =
    (ws.map Wanted.key).filter fun key => s.contains key := by
  rw [List.filter_map]
  rfl

lemma keys_newFor : (s.newFor owner rs).map Resource.key =
    (rs.map Resource.key).filter fun key => !s.contains key := by
  rw [List.filter_map]
  simp [Store.newFor, Function.comp_def]

lemma contains_of_mem_newFor {r : Resource} (h : r ∈ s.newFor owner rs) :
    s.contains r.key = false := by
  obtain ⟨r', hr', rfl⟩ := List.mem_map.mp h
  simpa using (List.mem_filter.mp hr').2

lemma gained_newFor (stamps : Nat → Stamp) (hnodup : (rs.map Resource.key).Nodup) :
    Store.Gained stamps s (s.putAll stamps (s.newFor owner rs)) (s.newFor owner rs) := by
  apply Store.gained_putAll
  · exact fun r hr => contains_of_mem_newFor hr
  · rw [keys_newFor]
    exact hnodup.filter _

section
variable (s owner) (c : Config) (w : Workflow) (files : TextMap String)

lemma keys_newFor_objectsWith : (s.newFor owner (w.objectsWith c files)).map Resource.key =
    w.dependencyOrder.filter fun key => !s.contains key := by
  rw [keys_newFor, Workflow.keys_objectsWith]

lemma gained_newFor_objectsWith (stamps : Nat → Stamp) :
    Store.Gained stamps s (s.putAll stamps (s.newFor owner (w.objectsWith c files)))
      (s.newFor owner (w.objectsWith c files)) :=
  gained_newFor stamps (w.nodup_keys_objectsWith c files)

end

end WorkflowOperator
