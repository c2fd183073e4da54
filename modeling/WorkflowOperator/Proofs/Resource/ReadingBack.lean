import WorkflowOperator.Desired.Objects
import WorkflowOperator.Proofs.Json.Members
import WorkflowOperator.Proofs.Workflow.Rules
import WorkflowOperator.Resource.Reading

/-!
# Manifests are read back

Every part of an object is read back from the JSON that it is written as, in the order in which its
fields are read. The manifest adds the kind and the version of its interface group to the fields of the
object, none of which has the name of either.
-/

namespace WorkflowOperator

open Json Json.Decoder

/-! ### Metadata -/

lemma OwnerReference.decoder_toJson (o : OwnerReference) : decoder o.toJson = .ok o :=
  bind_ok (members_ofMembers _ _) rfl

lemma timestamp_text {t : Timestamp} (h : Timestamp.ofText? t.text = some t) :
    nullable timestamp (.string t.text) = .ok (some t) := by
  have hread : timestamp (.string t.text) = .ok t := by
    refine bind_ok rfl ?_
    rw [h]
    rfl
  simp only [nullable, hread]
  rfl

lemma ObjectMeta.decoder_toJson {m : ObjectMeta}
    (h : ∀ t ∈ m.created, Timestamp.ofText? t.text = some t) : decoder m.toJson = .ok m := by
  have hcreated : ∀ t ∈ m.created, nullable timestamp (.string t.text) = .ok (some t) :=
    fun t ht => timestamp_text (h t ht)
  refine bind_ok (members_ofMembers _ _) ?_
  refine bind_ok (required_of_member (.string m.name) m.name (by simp) rfl) ?_
  refine bind_ok (withDefault_nullable .string m.inNamespace (by simp) fun _ _ => rfl) ?_
  refine bind_ok (withDefault_textMap m.labels (by simp)) ?_
  refine bind_ok (withDefault_list OwnerReference.toJson m.owners (by simp)
    fun o _ => o.decoder_toJson) ?_
  refine bind_ok (withDefault_nullable .string m.uid (by simp) fun _ _ => rfl) ?_
  refine bind_ok (withDefault_nullable (fun t : Timestamp => .string t.text) m.created (by simp)
    hcreated) ?_
  rfl

/-! ### Access control -/

lemma ServiceSpec.decoder_toJson (s : ServiceSpec) : decoder s.toJson = .ok s := by
  refine bind_ok (members_ofMembers _ _) ?_
  refine bind_ok rfl ?_
  refine bind_ok (textMap_ofTextMap s.selector) ?_
  rfl

lemma PolicyRule.decoder_toJson (r : PolicyRule) : decoder r.toJson = .ok r := by
  refine bind_ok (members_ofMembers _ _) ?_
  refine bind_ok (list_ofStrings r.apiGroups) ?_
  refine bind_ok (list_ofStrings r.resources) ?_
  refine bind_ok (list_ofStrings r.verbs) ?_
  rfl

lemma Subject.decoder_toJson (s : Subject) : decoder s.toJson = .ok s :=
  bind_ok (members_ofMembers _ _) rfl

lemma RoleRef.decoder_toJson (r : RoleRef) : decoder r.toJson = .ok r :=
  bind_ok (members_ofMembers _ _) rfl

/-! ### Pods -/

lemma VolumeMount.decoder_toJson (m : VolumeMount) : decoder m.toJson = .ok m :=
  bind_ok (members_ofMembers _ _) rfl

lemma Container.decoder_toJson (c : Container) : decoder c.toJson = .ok c := by
  refine bind_ok (members_ofMembers _ _) ?_
  refine bind_ok (required_of_member (.string c.name) c.name (by simp) rfl) ?_
  refine bind_ok (required_of_member (.string c.image) c.image (by simp) rfl) ?_
  refine bind_ok (required_of_member (.string c.imagePullPolicy) c.imagePullPolicy (by simp) rfl) ?_
  refine bind_ok (withDefault_list .string c.command (by simp) fun _ _ => rfl) ?_
  refine bind_ok (withDefault_list VolumeMount.toJson c.volumeMounts (by simp)
    fun m _ => m.decoder_toJson) ?_
  rfl

lemma Volume.decoder_toJson (v : Volume) : decoder v.toJson = .ok v := by
  have hsource : volumeSource (ofMembers [("name", .string v.configMap)]) = .ok v.configMap :=
    bind_ok (members_ofMembers _ _) rfl
  refine bind_ok (members_ofMembers _ _) ?_
  refine bind_ok rfl ?_
  refine bind_ok hsource ?_
  rfl

lemma PodSpec.decoder_toJson (p : PodSpec) : decoder p.toJson = .ok p := by
  refine bind_ok (members_ofMembers _ _) ?_
  refine bind_ok (withDefault_nullable .string p.serviceAccountName (by simp) fun _ _ => rfl) ?_
  refine bind_ok (withDefault_nullable .string p.hostname (by simp) fun _ _ => rfl) ?_
  refine bind_ok (required_of_member (.string p.subdomain) p.subdomain (by simp) rfl) ?_
  refine bind_ok (required_of_member (.array (p.containers.map Container.toJson)) p.containers
    (by simp) (list_map fun c _ => c.decoder_toJson)) ?_
  refine bind_ok (withDefault_list Volume.toJson p.volumes (by simp) fun v _ => v.decoder_toJson) ?_
  refine bind_ok (withDefault_textMap p.nodeSelector (by simp)) ?_
  rfl

lemma PodTemplate.decoder_toJson (t : PodTemplate) : decoder t.toJson = .ok t := by
  refine bind_ok (members_ofMembers _ _) ?_
  refine bind_ok (textMap_ofTextMap t.labels) ?_
  refine bind_ok t.spec.decoder_toJson ?_
  rfl

lemma Workload.ofMembers_members {w : Workload} {ms : Members}
    (h : ∀ e ∈ w.members, ms e.1 = some e.2) : ofMembers ms = .ok w := by
  simp only [members, List.forall_mem_cons] at h
  obtain ⟨hreplicas, hselector, htemplate, -⟩ := h
  refine bind_ok (required_of_member _ w.replicas hreplicas (word32_countJson w.replicas)) ?_
  refine bind_ok (required_of_member _ w.selector hselector (textMap_ofTextMap w.selector)) ?_
  refine bind_ok (required_of_member _ w.template htemplate w.template.decoder_toJson) ?_
  rfl

lemma statefulSetSpec_members (serviceName : String) (workload : Workload) :
    statefulSetSpec (ofMembers (("serviceName", .string serviceName) :: workload.members)) =
      .ok (.statefulSet serviceName workload) := by
  have hnodup : ((("serviceName", Json.string serviceName) :: workload.members).map
      Prod.fst).Nodup := by
    change ["serviceName", "replicas", "selector", "template"].Nodup
    decide
  refine bind_ok (members_ofMembers _ _) ?_
  refine bind_ok (required_of_member (.string serviceName) serviceName rfl rfl) ?_
  refine bind_ok (Workload.ofMembers_members fun e he =>
    (member?_eq_some_iff hnodup).mpr (List.mem_cons_of_mem _ he)) ?_
  rfl

lemma deploymentSpec_members (workload : Workload) :
    deploymentSpec (ofMembers workload.members) = .ok (.deployment workload) := by
  have hnodup : (workload.members.map Prod.fst).Nodup := by
    change ["replicas", "selector", "template"].Nodup
    decide
  refine bind_ok (members_ofMembers _ _) ?_
  refine bind_ok (Workload.ofMembers_members fun e he => (member?_eq_some_iff hnodup).mpr he) ?_
  rfl

/-! ### Objects -/

lemma Body.ofMembers_members {b : Body} {ms : Members} (h : ∀ e ∈ b.members, ms e.1 = some e.2) :
    ofMembers ms b.kind = .ok b := by
  have hrules : ∀ rules : List PolicyRule,
      list PolicyRule.decoder (.array (rules.map PolicyRule.toJson)) = .ok rules :=
    fun _ => list_map fun r _ => r.decoder_toJson
  have hsubjects : ∀ subjects : List Subject,
      list Subject.decoder (.array (subjects.map Subject.toJson)) = .ok subjects :=
    fun _ => list_map fun s _ => s.decoder_toJson
  have hmap : ∀ {α : Type} (f : α → Body) {x : Except Fault α} {a : α}, x = .ok a →
      f <$> x = .ok (f a) := by
    rintro α f x a rfl
    rfl
  cases b with
  | service spec =>
    exact hmap _ (required_of_member _ spec (h _ List.mem_cons_self) spec.decoder_toJson)
  | serviceAccount => rfl
  | clusterRole rules =>
    exact hmap _ (required_of_member _ rules (h _ List.mem_cons_self) (hrules rules))
  | clusterRoleBinding subjects roleRef =>
    simp only [members, List.forall_mem_cons] at h
    refine bind_ok (required_of_member _ subjects h.1 (hsubjects subjects)) ?_
    exact bind_ok (required_of_member _ roleRef h.2.1 roleRef.decoder_toJson) rfl
  | role rules =>
    exact hmap _ (required_of_member _ rules (h _ List.mem_cons_self) (hrules rules))
  | roleBinding subjects roleRef =>
    simp only [members, List.forall_mem_cons] at h
    refine bind_ok (required_of_member _ subjects h.1 (hsubjects subjects)) ?_
    exact bind_ok (required_of_member _ roleRef h.2.1 roleRef.decoder_toJson) rfl
  | statefulSet serviceName workload =>
    exact required_of_member _ _ (h _ List.mem_cons_self)
      (statefulSetSpec_members serviceName workload)
  | configMap data =>
    exact hmap _ (required_of_member _ data (h _ List.mem_cons_self) (textMap_ofTextMap data))
  | deployment workload =>
    exact required_of_member _ _ (h _ List.mem_cons_self) (deploymentSpec_members workload)

namespace Resource

def fields (r : Resource) : List (String × Json) := ("metadata", r.metadata.toJson) :: r.body.members

def manifestMembers (r : Resource) : List (String × Json) :=
  ("kind", .string r.kind.name) :: ("apiVersion", .string r.kind.apiVersion) :: r.fields

lemma manifest_eq (r : Resource) : r.manifest = ofMembers r.manifestMembers := rfl

lemma keys_manifestMembers (r : Resource) :
    r.manifestMembers.map Prod.fst = "kind" :: "apiVersion" :: "metadata" :: r.kind.bodyFields := by
  obtain ⟨metadata, body⟩ := r
  cases body <;> rfl

lemma nodup_manifestMembers (r : Resource) : (r.manifestMembers.map Prod.fst).Nodup := by
  rw [keys_manifestMembers]
  cases r.kind <;> decide

/-- The reader takes the kind from the manifest and leaves the manifest to the reader of the fields. -/
lemma splitKind_manifest (r : Resource) : splitKind r.manifest = .ok (r.kind, r.manifest) := by
  have hkind : r.manifest.member? "kind" = some (.string r.kind.name) := by
    rw [manifest_eq, member?_ofMembers]
    exact (member?_eq_some_iff r.nodup_manifestMembers).mpr List.mem_cons_self
  refine bind_ok (required_of_member (.string r.kind.name) (.string r.kind.name, r.manifest)
    hkind rfl) ?_
  refine bind_ok rfl ?_
  rw [ResourceKind.ofName?_name]
  rfl

lemma decoder_manifest {r : Resource}
    (h : ∀ t ∈ r.metadata.created, Timestamp.ofText? t.text = some t) :
    decoder r.manifest = .ok r := by
  have hfound : ∀ e ∈ r.fields, (object r.manifestMembers).member? e.1 = some e.2 := fun e he =>
    (member?_eq_some_iff r.nodup_manifestMembers).mpr
      (List.mem_cons_of_mem _ (List.mem_cons_of_mem _ he))
  rw [fields, List.forall_mem_cons] at hfound
  refine bind_ok r.splitKind_manifest ?_
  refine bind_ok (members_ofMembers _ _) ?_
  refine bind_ok (required_of_member _ r.metadata hfound.1 (ObjectMeta.decoder_toJson h)) ?_
  refine bind_ok (Body.ofMembers_members hfound.2) ?_
  rfl

/-- The manifest of an object is read as the object, if the time of its creation is read back from its
text. It has the fields of the object and, under names of their own, one kind and one version. -/
theorem manifest_reads_back {r : Resource}
    (h : ∀ t ∈ r.metadata.created, Timestamp.ofText? t.text = some t) :
    ofJson r.manifest = .ok r ∧
    ∃ entries, r.manifest = .object entries ∧ (entries.map Prod.fst).Nodup ∧
      entries.Perm (("kind", .string r.kind.name) ::
        ("apiVersion", .string r.kind.apiVersion) :: r.fields) := by
  refine ⟨?_, (SortedMap.ofList r.manifestMembers).toList, rfl, SortedMap.nodup_keys _,
    SortedMap.toList_ofList_perm r.nodup_manifestMembers⟩
  rw [ofJson, decoder_manifest h]
  rfl

/-- The replicas of a registry as a store keeps them. -/
def kept : Resource :=
  let w := Workflow.stageless "training" "lab" "1f0a"
  let r := w.registrySet.withOwner (w.ownerWith "1f0a")
  { r with metadata := { r.metadata with
    uid := some "2b7c"
    created := some ⟨28401120, 7, 500000000⟩ } }

theorem kept_reads_back :
    (∀ t ∈ kept.metadata.created, Timestamp.ofText? t.text = some t) ∧
    ofJson kept.manifest = .ok kept ∧
    ∃ entries, kept.manifest = .object entries ∧ (entries.map Prod.fst).Nodup ∧
      entries.Perm (("kind", .string "StatefulSet") :: ("apiVersion", .string "apps/v1") ::
        kept.fields) := by
  have hcreated : ∀ t ∈ kept.metadata.created, Timestamp.ofText? t.text = some t := by
    rintro t ⟨⟩
    decide +kernel
  exact ⟨hcreated, manifest_reads_back hcreated⟩

end Resource

end WorkflowOperator
