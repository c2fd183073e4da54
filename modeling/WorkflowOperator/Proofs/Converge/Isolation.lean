import WorkflowOperator.Proofs.Converge.Effect
import WorkflowOperator.Proofs.Store.Collection

/-!
# Two workflows on one store

The names of most objects follow from the name and the namespace of their workflow. Cluster roles are
in no namespace, and the registry has a name of its own, so two workflows may want the same key. A pass
then takes the object of the other workflow for its own.
-/

namespace WorkflowOperator

namespace Workflow

def nameFor (w : Workflow) : ResourceKind → String
  | .service => w.serviceName
  | .serviceAccount => w.serviceAccountName
  | .clusterRole | .clusterRoleBinding => w.clusterRoleName
  | .role | .roleBinding => w.roleName
  | .statefulSet => w.registryName
  | .configMap | .deployment => w.managerName

/-- Whether two workflows want the same object of a kind. -/
def Shares (a b : Workflow) : ResourceKind → Prop
  | .clusterRole | .clusterRoleBinding => a.name = b.name
  | .statefulSet => a.hasInClusterRegistry = true ∧ b.hasInClusterRegistry = true ∧
      a.inNamespace = b.inNamespace ∧ a.registryName = b.registryName
  | _ => False

lemma mem_dependencyOrder_iff (w : Workflow) (key : ObjectKey) :
    key ∈ w.dependencyOrder ↔ key = w.keyOf key.kind (w.nameFor key.kind) ∧
      (key.kind = .statefulSet → w.hasInClusterRegistry = true) := by
  constructor
  · intro h
    simp only [dependencyOrder, List.mem_append, List.mem_cons, List.not_mem_nil, or_false] at h
    rcases h with (h | h) | h
    · rcases h with rfl | rfl | rfl | rfl | rfl | rfl <;> exact ⟨rfl, fun hset => by cases hset⟩
    · split at h
      · rename_i hreg
        rw [List.mem_singleton] at h
        subst h
        exact ⟨rfl, fun _ => hreg⟩
      · cases h
    · rcases h with rfl | rfl <;> exact ⟨rfl, fun hset => by cases hset⟩
  · rintro ⟨hkey, hreg⟩
    rw [hkey]
    cases hkind : key.kind <;> simp only [dependencyOrder, nameFor, List.mem_append, List.mem_cons,
      true_or, or_true]
    rw [if_pos (hreg hkind)]
    simp

lemma keyOf_eq_keyOf_iff (a b : Workflow) (kind : ResourceKind) (m n : String) :
    a.keyOf kind m = b.keyOf kind n ↔
      m = n ∧ (kind.isClusterScoped = false → a.inNamespace = b.inNamespace) := by
  cases kind <;> simp [keyOf, ObjectKey.of, ResourceKind.isClusterScoped]

lemma mem_both_iff {a b : Workflow} (hid : (a.name, a.inNamespace) ≠ (b.name, b.inNamespace))
    {key : ObjectKey} (hb : key ∈ b.dependencyOrder) :
    key ∈ a.dependencyOrder ↔ a.Shares b key.kind := by
  rw [mem_dependencyOrder_iff] at hb ⊢
  obtain ⟨hkey, hreg⟩ := hb
  rw [Ne, Prod.mk.injEq] at hid
  have heq : key = a.keyOf key.kind (a.nameFor key.kind) ↔
      a.nameFor key.kind = b.nameFor key.kind ∧
        (key.kind.isClusterScoped = false → a.inNamespace = b.inNamespace) := by
    rw [← keyOf_eq_keyOf_iff]
    constructor
    · intro h
      exact h.symm.trans hkey
    · intro h
      exact hkey.trans h.symm
  rw [heq]
  cases hkind : key.kind <;> simp_all [Shares, nameFor, ResourceKind.isClusterScoped,
    serviceName, serviceAccountName, clusterRoleName, roleName, managerName]
  tauto

/-- Two workflows want nothing in common exactly if their names differ and they do not set up one
registry. -/
lemma shares_nothing_iff (a b : Workflow) :
    (∀ key ∈ b.dependencyOrder, ¬ a.Shares b key.kind) ↔
      a.name ≠ b.name ∧ ¬ a.Shares b .statefulSet := by
  constructor
  · intro h
    refine ⟨h (b.keyOf .clusterRole b.clusterRoleName) (by simp [dependencyOrder]), fun hset => ?_⟩
    have hmem : b.keyOf .statefulSet b.registryName ∈ b.dependencyOrder := by
      simp [dependencyOrder, hset.2.1]
    exact h _ hmem hset
  · rintro ⟨hname, hset⟩ key - hshare
    cases hkind : key.kind <;> rw [hkind] at hshare
    case clusterRole => exact hname hshare
    case clusterRoleBinding => exact hname hshare
    case statefulSet => exact hset hshare
    all_goals exact hshare

lemma shares_comm (a b : Workflow) (kind : ResourceKind) : a.Shares b kind ↔ b.Shares a kind := by
  cases kind <;> simp only [Shares]
  case clusterRole => exact eq_comm
  case clusterRoleBinding => exact eq_comm
  case statefulSet => tauto

end Workflow

/-- Whether a pass created all objects of its workflow, each owned by the workflow alone, and each is
still there after a collection. -/
structure Isolated (w : Workflow) (owner : OwnerReference) (objects : List Resource)
    (ran : Ran Store (Outcome Report)) (left : Store) : Prop where
  allCreated : ran.result = .ok ⟨w.name, w.inNamespace, w.dependencyOrder, []⟩
  held : ∀ r ∈ objects, ∃ stamp,
    ran.state.objects.get? r.key = some ((r.withOwner owner).stamped stamp)
  kept : ∀ r ∈ objects, left.objects.get? r.key = ran.state.objects.get? r.key

section Two
variable (stamps : Nat → Stamp) {c : Config} {desiredA desiredB a b : Workflow} {uidA uidB : String}
  {filesA filesB : TextMap String}

/-- What a pass leaves in an empty store. -/
lemma first_pass (ha : desiredA.validate c = .ok a) (hua : a.identity.uid = some uidA)
    (hfa : a.managerFiles c = .ok filesA) :
    (∀ key, (Store.empty.converge stamps c desiredA).state.contains key = true ↔
      key ∈ a.dependencyOrder) ∧
    (Store.empty.converge stamps c desiredA).state.IsStamped stamps ∧
    ∀ r ∈ a.objectsWith c filesA, ∃ n,
      (Store.empty.converge stamps c desiredA).state.objects.get? r.key =
        some ((r.withOwner (a.ownerWith uidA)).stamped (stamps n)) := by
  have hstate := (converge_creates stamps (s := .empty) ha hua fun _ => hfa).2
  have hnone : ∀ key, Store.empty.contains key = false := fun _ => rfl
  rw [hstate]
  refine ⟨?_, Store.IsStamped.empty.putAll _, ?_⟩
  · intro key
    rw [Store.contains_putAll, keys_newFor_objectsWith, hnone]
    simp [hnone]
  · intro r hr
    exact Store.get?_of_gained stamps (gained_newFor_objectsWith .empty _ c a filesA stamps)
      (List.mem_map_of_mem (List.mem_filter.mpr ⟨hr, by simp [hnone]⟩))

lemma owners_of_withOwner {c : Config} {w : Workflow} {files : TextMap String} {r : Resource}
    (h : r ∈ w.objectsWith c files) (owner : OwnerReference) (stamp : Stamp) :
    ((r.withOwner owner).stamped stamp).metadata.owners = [owner] := by
  simp [Resource.stamped, Resource.withOwner, Workflow.owners_of_mem_objectsWith h]

section Collected
variable {stamps} {s : Store} {w : Workflow} {uid : String} {files : TextMap String} {r : Resource}
  {stamp : Stamp}
variable (hr : r ∈ w.objectsWith c files)
  (hmade : s.objects.get? r.key = some ((r.withOwner (w.ownerWith uid)).stamped stamp))
include hr hmade

lemma get?_collect_of_made : (s.collect uid).2.objects.get? r.key = none := by
  refine Store.get?_collect_of_owned hmade ?_
  rw [Resource.isOwnedBy, owners_of_withOwner hr]
  simp [Workflow.ownerWith]

/-- What was made for one workflow outlasts the collection of what another one owned. -/
lemma get?_collect_of_made_for_other (hstamped : s.IsStamped stamps)
    (hfresh : ∀ n, (stamps n).uid ≠ uid) {other : String} (hne : uid ≠ other) :
    (s.collect other).2.objects.get? r.key =
      some ((r.withOwner (w.ownerWith uid)).stamped stamp) := by
  refine Store.get?_collect_of_safe hne (fun _ _ hget => hstamped.uid_ne hfresh hget) hmade ?_
  intro o ho
  rw [owners_of_withOwner hr, List.mem_singleton] at ho
  rw [ho]
  rfl

end Collected

/-- What a second pass makes of a store that another workflow has been at, and what a collection
leaves of that. -/
lemma second_pass (ha : desiredA.validate c = .ok a) (hb : desiredB.validate c = .ok b)
    (hua : a.identity.uid = some uidA) (hub : b.identity.uid = some uidB)
    (hfa : a.managerFiles c = .ok filesA) (hfb : b.managerFiles c = .ok filesB)
    (huid : uidA ≠ uidB) (hfresh : ∀ n, (stamps n).uid ≠ uidB) :
    let second := (Store.empty.converge stamps c desiredA).state.converge stamps c desiredB
    let left := (second.state.collect uidA).2
    second.result = .ok ⟨b.name, b.inNamespace,
        b.dependencyOrder.filter (fun key => key ∉ a.dependencyOrder),
        b.dependencyOrder.filter (fun key => key ∈ a.dependencyOrder)⟩ ∧
      (∀ r ∈ b.objectsWith c filesB, r.key ∉ a.dependencyOrder → ∃ n,
        let made := (r.withOwner (b.ownerWith uidB)).stamped (stamps n)
        second.state.objects.get? r.key = some made ∧ left.objects.get? r.key = some made) ∧
      ∀ r ∈ a.objectsWith c filesA, ∃ n,
        let made := (r.withOwner (a.ownerWith uidA)).stamped (stamps n)
        second.state.objects.get? r.key = some made ∧ left.objects.get? r.key = none := by
  obtain ⟨hcontains, hstamped, hmade⟩ := first_pass stamps ha hua hfa
  generalize (Store.empty.converge stamps c desiredA).state = first at hcontains hstamped hmade ⊢
  intro second left
  obtain ⟨hresult, hstate⟩ := converge_creates stamps (s := first) hb hub fun _ => hfb
  have hsecond : second.state = first.putAll stamps (first.newFor (b.ownerWith uidB)
      (b.objectsWith c filesB)) := hstate
  have hgained : Store.Gained stamps first second.state _ :=
    hsecond ▸ gained_newFor_objectsWith first _ c b filesB stamps
  refine ⟨?_, ?_, ?_⟩
  · have hhas : ∀ key, first.contains key = decide (key ∈ a.dependencyOrder) := by
      intro key
      rw [Bool.eq_iff_iff, hcontains, decide_eq_true_iff]
    have hran : second.result = _ := hresult
    rw [hran]
    simp only [hhas, decide_not]
  · intro r hr hnot
    have hnew : r.withOwner (b.ownerWith uidB) ∈
        first.newFor (b.ownerWith uidB) (b.objectsWith c filesB) := by
      refine List.mem_map_of_mem (List.mem_filter.mpr ⟨hr, ?_⟩)
      rw [Bool.not_eq_true', Bool.eq_false_iff, Ne, hcontains]
      exact hnot
    obtain ⟨n, hn⟩ := Store.get?_of_gained stamps hgained hnew
    exact ⟨n, hn, get?_collect_of_made_for_other hr hn (hsecond ▸ hstamped.putAll _) hfresh huid.symm⟩
  · intro r hr
    obtain ⟨n, hn⟩ := hmade r hr
    have hkept := hgained.kept _ _ hn
    exact ⟨n, hkept, get?_collect_of_made hr hkept⟩

/-- Convergence of two workflows of different identities on one store leaves the second one all its
objects, whatever becomes of the first, exactly if their names differ and they do not set up one
registry in one namespace. Otherwise the second takes the cluster roles or the registry of the first
for its own, and they go with the first. -/
theorem isolated_iff_apart (ha : desiredA.validate c = .ok a) (hb : desiredB.validate c = .ok b)
    (hua : a.identity.uid = some uidA) (hub : b.identity.uid = some uidB)
    (hfa : a.managerFiles c = .ok filesA) (hfb : b.managerFiles c = .ok filesB)
    (hid : (a.name, a.inNamespace) ≠ (b.name, b.inNamespace)) (huid : uidA ≠ uidB)
    (hfresh : ∀ n, (stamps n).uid ≠ uidB) :
    let second := (Store.empty.converge stamps c desiredA).state.converge stamps c desiredB
    let left := (second.state.collect uidA).2
    (Isolated b (b.ownerWith uidB) (b.objectsWith c filesB) second left ↔
      a.name ≠ b.name ∧ ¬ a.Shares b .statefulSet) ∧
    (∀ r ∈ b.objectsWith c filesB, ¬ a.Shares b r.key.kind → ∃ n,
      let made := (r.withOwner (b.ownerWith uidB)).stamped (stamps n)
      second.state.objects.get? r.key = some made ∧ left.objects.get? r.key = some made) ∧
    ∀ r ∈ a.objectsWith c filesA, a.Shares b r.key.kind →
      (∃ report, second.result = .ok report ∧ r.key ∈ report.present) ∧
      (∃ n, second.state.objects.get? r.key =
        some ((r.withOwner (a.ownerWith uidA)).stamped (stamps n))) ∧
      left.objects.get? r.key = none := by
  intro second left
  obtain ⟨hresult, hown, hshared⟩ := second_pass stamps ha hb hua hub hfa hfb huid hfresh
  have hmemB : ∀ r ∈ b.objectsWith c filesB, r.key ∈ b.dependencyOrder :=
    fun _ hr => Workflow.key_mem_dependencyOrder hr
  have hapart : ∀ r ∈ b.objectsWith c filesB, ¬ a.Shares b r.key.kind → r.key ∉ a.dependencyOrder :=
    fun r hr hnot => mt (Workflow.mem_both_iff hid (hmemB r hr)).mp hnot
  refine ⟨?_, fun r hr hnot => hown r hr (hapart r hr hnot), ?_⟩
  · rw [← Workflow.shares_nothing_iff]
    constructor
    · intro hiso key hkey hshare
      have hreport := hresult.symm.trans hiso.allCreated
      rw [Except.ok.injEq, Report.mk.injEq] at hreport
      have hnone := List.filter_eq_nil_iff.mp hreport.2.2.2 key hkey
      rw [decide_eq_true_iff] at hnone
      exact hnone ((Workflow.mem_both_iff hid hkey).mpr hshare)
    · intro hnothing
      have hnot : ∀ key ∈ b.dependencyOrder, key ∉ a.dependencyOrder :=
        fun key hkey => mt (Workflow.mem_both_iff hid hkey).mp (hnothing key hkey)
      refine ⟨hresult.trans ?_, ?_, ?_⟩
      · rw [List.filter_eq_self.mpr fun key hkey => decide_eq_true (hnot key hkey),
          List.filter_eq_nil_iff.mpr fun key hkey => by simpa using hnot key hkey]
      · intro r hr
        obtain ⟨n, hn, -⟩ := hown r hr (hnot _ (hmemB r hr))
        exact ⟨_, hn⟩
      · intro r hr
        obtain ⟨n, hn, hleft⟩ := hown r hr (hnot _ (hmemB r hr))
        exact hleft.trans hn.symm
  · intro r hr hshare
    have hmemA : r.key ∈ a.dependencyOrder := Workflow.key_mem_dependencyOrder hr
    have hboth : r.key ∈ b.dependencyOrder :=
      (Workflow.mem_both_iff hid.symm hmemA).mpr ((Workflow.shares_comm a b _).mp hshare)
    obtain ⟨n, hn, hleft⟩ := hshared r hr
    refine ⟨⟨_, hresult, List.mem_filter.mpr ⟨hboth, decide_eq_true hmemA⟩⟩, ⟨n, hn⟩, hleft⟩

end Two

/-! ### Namesakes in two namespaces -/

section Namesakes

lemma clusterRole_mem_objectsWith (c : Config) (files : TextMap String) (w : Workflow) :
    w.clusterRole ∈ w.objectsWith c files := by
  simp [Workflow.objectsWith, Workflow.objectsBeforeFiles, Workflow.accessControl]

lemma validate_plant : (Workflow.stageless "training" "plant" "9c3e").validate .standard =
    .ok ((Workflow.stageless "training" "plant" "9c3e").withDefaults .standard) :=
  Workflow.validate_of_violation?_eq_none (by decide +kernel)

lemma files_plant : ∃ files, ((Workflow.stageless "training" "plant" "9c3e").withDefaults
    .standard).managerFiles .standard = .ok files :=
  Workflow.exists_managerFiles (Workflow.hasEntrypointValues_standard validate_plant)
    fun _ hj => absurd hj List.not_mem_nil

/-- Of two namesakes in different namespaces the second is not isolated. -/
theorem namesakes_not_isolated :
    let desiredA := Workflow.stageless "training" "lab" "1f0a"
    let desiredB := Workflow.stageless "training" "plant" "9c3e"
    let b := desiredB.withDefaults .standard
    let second := (Store.empty.converge .numbered .standard desiredA).state.converge .numbered
      .standard desiredB
    let left := (second.state.collect "1f0a").2
    ∃ files, b.managerFiles .standard = .ok files ∧
      ¬ Isolated b (b.ownerWith "9c3e") (b.objectsWith .standard files) second left := by
  obtain ⟨filesA, hfa⟩ := files_lab
  obtain ⟨filesB, hfb⟩ := files_plant
  have hiso := (isolated_iff_apart .numbered validate_lab validate_plant rfl rfl hfa hfb (by decide)
    (by decide) (uid_numbered_ne (by decide))).1
  exact ⟨filesB, hfb, fun h => (hiso.mp h).1 rfl⟩

/-- Different identities and identifiers do not keep workflows apart: the namesakes validate, their
files can be made, and still the second takes the cluster roles of the first for its own, and has none
once the objects of the first are collected. -/
theorem namesakes_share_cluster_roles :
    let desiredA := Workflow.stageless "training" "lab" "1f0a"
    let desiredB := Workflow.stageless "training" "plant" "9c3e"
    let a := desiredA.withDefaults .standard
    let b := desiredB.withDefaults .standard
    let second := (Store.empty.converge .numbered .standard desiredA).state.converge .numbered
      .standard desiredB
    let left := (second.state.collect "1f0a").2
    let key : ObjectKey := ⟨.clusterRole, "training-cluster-roles", none⟩
    desiredA.validate .standard = .ok a ∧ desiredB.validate .standard = .ok b ∧
    (∃ files, a.managerFiles .standard = .ok files) ∧
    (∃ files, b.managerFiles .standard = .ok files) ∧
    (a.name, a.inNamespace) ≠ (b.name, b.inNamespace) ∧ "1f0a" ≠ "9c3e" ∧
    key ∈ b.wantedKeys .standard ∧
    (∃ report, second.result = .ok report ∧ key ∈ report.present) ∧
    (∃ r, second.state.objects.get? key = some r ∧
      r.metadata.owners = [a.ownerWith "1f0a"]) ∧
    left.objects.get? key = none := by
  obtain ⟨filesA, hfa⟩ := files_lab
  obtain ⟨filesB, hfb⟩ := files_plant
  obtain ⟨hresult, -, hshared⟩ := second_pass .numbered validate_lab validate_plant rfl rfl hfa hfb
    (by decide) (uid_numbered_ne (by decide))
  have hrole := clusterRole_mem_objectsWith .standard filesA
    ((Workflow.stageless "training" "lab" "1f0a").withDefaults .standard)
  obtain ⟨n, hn, hleft⟩ := hshared _ hrole
  have hwanted : (⟨.clusterRole, "training-cluster-roles", none⟩ : ObjectKey) ∈
      ((Workflow.stageless "training" "plant" "9c3e").withDefaults .standard).wantedKeys .standard := by
    rw [Workflow.wantedKeys_eq]
    decide
  exact ⟨validate_lab, validate_plant, ⟨filesA, hfa⟩, ⟨filesB, hfb⟩, by decide, by decide, hwanted,
    ⟨_, hresult, by decide⟩, ⟨_, hn, rfl⟩, hleft⟩

end Namesakes

end WorkflowOperator
