import WorkflowOperator.Proofs.Converge.Effect
import WorkflowOperator.Proofs.Job.RegistryHost
import WorkflowOperator.Proofs.Manager.Entrypoint
import WorkflowOperator.Proofs.Manager.Files
import WorkflowOperator.Proofs.Workflow.Filling

/-!
# References between the objects of a workflow

The objects of a workflow name each other: pods are named behind a service, roles are given to an
account, a container runs a file among those that are mounted, and everything that stores or fetches
results names the address of the registry. Each of these names is derived on its own, and each is the
name of an object that is created with the others.
-/

namespace WorkflowOperator

open Text Yaml

/-! ### References -/

namespace Resource

/-- A service names the pods of an object in its namespace, and governs it if it is a stateful set. -/
def Fronts (service r : Resource) : Prop :=
  match r.body with
  | .statefulSet governing workload =>
    r.metadata.inNamespace = service.metadata.inNamespace ∧ governing = service.metadata.name ∧
      workload.template.spec.subdomain = service.metadata.name
  | .deployment workload =>
    r.metadata.inNamespace = service.metadata.inNamespace ∧
      workload.template.spec.subdomain = service.metadata.name
  | _ => True

def selector? (r : Resource) : Option (TextMap String) :=
  match r.body with
  | .service spec => some spec.selector
  | .statefulSet _ workload => some workload.selector
  | .deployment workload => some workload.selector
  | _ => none

def podLabels? (r : Resource) : Option (TextMap String) :=
  match r.body with
  | .statefulSet _ workload => some workload.template.labels
  | .deployment workload => some workload.template.labels
  | _ => none

/-- An object selects the pods that another one makes. -/
def Selects (r r' : Resource) : Prop :=
  ∀ selector labels, r.selector? = some selector → r'.podLabels? = some labels →
    ∀ key value, selector.get? key = some value → labels.get? key = some value

end Resource

/-- A reference to a role of the given kind and namespace among some objects. -/
def RoleRef.IsTo (role : RoleRef) (objects : List Resource) (kind : ResourceKind)
    (inNamespace : Option String) : Prop :=
  role.apiGroup ++ "/v1" = kind.apiVersion ∧ role.kind = kind.name ∧
    ⟨kind, role.name, inNamespace⟩ ∈ objects.map Resource.key

namespace Resource

/-- An account as one to whom roles are given. -/
def IsSubject (account : Resource) (subject : Subject) : Prop :=
  subject.kind = account.kind.name ∧ subject.name = account.metadata.name ∧
    account.metadata.inNamespace = some subject.inNamespace

/-- A binding gives a role of its own scope to an account and to no one else, and a deployment runs
under this account. -/
def ActsThrough (objects : List Resource) (account r : Resource) : Prop :=
  match r.body with
  | .clusterRoleBinding subjects role =>
    (∃ subject, subjects = [subject] ∧ account.IsSubject subject) ∧
      role.IsTo objects .clusterRole none
  | .roleBinding subjects role =>
    (∃ subject, subjects = [subject] ∧ account.IsSubject subject) ∧
      role.IsTo objects .role r.metadata.inNamespace
  | .deployment workload =>
    r.metadata.inNamespace = account.metadata.inNamespace ∧
      workload.template.spec.serviceAccountName = some account.metadata.name
  | _ => True

/-- A deployment runs the entrypoint among the given files: all volumes of its pod hold the files, and its
only container mounts no others and runs the entrypoint where it mounts one. -/
def IsRunBy (layout : ManagerLayout) (files r : Resource) : Prop :=
  match r.body with
  | .deployment workload =>
    r.metadata.inNamespace = files.metadata.inNamespace ∧
    (∀ volume ∈ workload.template.spec.volumes, volume.configMap = files.metadata.name) ∧
    ∃ container, workload.template.spec.containers = [container] ∧
      (∀ mount ∈ container.volumeMounts, ∃ volume ∈ workload.template.spec.volumes,
        volume.name = mount.name) ∧
      ∃ mount ∈ container.volumeMounts,
        mount.mountPath = withoutSlashes layout.mountPath ++ "/" ∧
          container.command = ["/bin/bash", mount.mountPath ++ layout.entrypoint]
  | _ => True

end Resource

namespace Workflow

/-- How the objects of a workflow refer to each other. The files are those of the manager. -/
structure AreLinked (c : Config) (w : Workflow) (files : TextMap String) (objects : List Resource)
    (service account configMap : Resource) : Prop where
  keys : objects.map Resource.key = w.dependencyOrder
  isHeadless : service ∈ objects ∧ ∃ selector, service.body = .service ⟨"None", selector⟩
  isAccount : account ∈ objects ∧ account.kind = .serviceAccount
  isConfigMap : configMap ∈ objects ∧ configMap.body = .configMap files
  fronts : ∀ r ∈ objects, service.Fronts r
  selects : ∀ r ∈ objects, ∀ r' ∈ objects, r.Selects r'
  actsThrough : ∀ r ∈ objects, account.ActsThrough objects r
  isRunBy : ∀ r ∈ objects, configMap.IsRunBy c.manager r
  /-- A registry in the cluster is reached at its first replica behind the service. -/
  registry : w.hasInClusterRegistry = true → ∃ set ∈ objects, set.kind = .statefulSet ∧
    ∃ inNamespace, set.metadata.inNamespace = some inNamespace ∧
      1 ≤ w.spec.registry.effectivePort.toNat ∧
      w.registryAddress = set.metadata.name ++ "-0." ++ service.metadata.name ++ "." ++
        inNamespace ++ ".svc.cluster.local:" ++ toString w.spec.registry.effectivePort.toNat
  /-- The document of a stage that names no host gives the address of the registry. It is a file of the
  manager unless the entrypoint has taken its name. -/
  document : ∀ index j, w.spec.jobs[index]? = some j → j.registry.host = "" →
    ∃ a entries registry, w.assemble c j = .ok a ∧
      Value.ofText a.document = .ok (.mapping entries) ∧
      (.string "registry", .mapping registry) ∈ entries ∧
      (.string "host", .string w.registryAddress) ∈ registry ∧
      (c.manager.entrypoint ≠ jobFileName index →
        files.get? (jobFileName index) = some a.document)
  /-- The entrypoint is a file of the manager and starts it with the address of the registry. -/
  entrypoint : ∃ lines, files.get? c.manager.entrypoint = some (asLines lines) ∧
    c.manager.command ++ " start --config-dir \"" ++ c.manager.mountPath ++ "\" --registry \"" ++
      w.registryAddress ++ "\" " ++ plainHttpFlag w.spec.registry.usesPlainHttp ++ " " ++
        workflowFileName ∈ lines

variable {c c' : Config} {desired w : Workflow} {files : TextMap String}

lemma objects_plan (hfiles : w.managerFiles c = .ok files) :
    (allWanted (w.plan c)).map Wanted.object = (w.objectsWith c files).map .ok := by
  rw [allWanted_plan, wanted, objectsWith, List.map_append, List.map_append, List.map_map]
  simp [object_wantedManagerFiles hfiles, Wanted.of, Function.comp_def]

lemma selects_of_mem_objectsWith : ∀ r ∈ w.objectsWith c files, ∀ r' ∈ w.objectsWith c files,
    r.Selects r' := by
  have hselector : ∀ r ∈ w.objectsWith c files, ∀ selector, r.selector? = some selector →
      selector = w.selector :=
    forall_mem_objectsWith (by rintro _ ⟨⟩; rfl) nofun nofun nofun nofun nofun
      (by rintro - _ ⟨⟩; rfl) nofun (by rintro _ ⟨⟩; rfl)
  have hlabels : ∀ r ∈ w.objectsWith c files, ∀ labels, r.podLabels? = some labels →
      labels = w.selector :=
    forall_mem_objectsWith nofun nofun nofun nofun nofun nofun
      (by rintro - _ ⟨⟩; rfl) nofun (by rintro _ ⟨⟩; rfl)
  intro r hr r' hr' selector labels hs hl key value hvalue
  rw [hlabels r' hr' labels hl]
  rwa [hselector r hr selector hs] at hvalue

lemma fronts_of_mem_objectsWith : ∀ r ∈ w.objectsWith c files, w.headlessService.Fronts r :=
  forall_mem_objectsWith trivial trivial trivial trivial trivial trivial
    (fun _ => ⟨rfl, rfl, rfl⟩) trivial ⟨rfl, rfl⟩

lemma isSubject_subject : w.serviceAccount.IsSubject w.subject := ⟨rfl, rfl, rfl⟩

lemma actsThrough_of_mem_objectsWith :
    ∀ r ∈ w.objectsWith c files, w.serviceAccount.ActsThrough (w.objectsWith c files) r := by
  have hgroup : accessControlGroup ++ "/v1" = "rbac.authorization.k8s.io/v1" := by decide
  have hcluster : (⟨.clusterRole, w.clusterRoleName, none⟩ : ObjectKey) ∈
      (w.objectsWith c files).map Resource.key := by
    rw [keys_objectsWith]
    simp [dependencyOrder, keyOf, ObjectKey.of, ResourceKind.isClusterScoped]
  have hrole : (⟨.role, w.roleName, some w.inNamespace⟩ : ObjectKey) ∈
      (w.objectsWith c files).map Resource.key := by
    rw [keys_objectsWith]
    simp [dependencyOrder, keyOf, ObjectKey.of, ResourceKind.isClusterScoped]
  exact forall_mem_objectsWith trivial trivial trivial
    ⟨⟨_, rfl, isSubject_subject⟩, hgroup, rfl, hcluster⟩ trivial
    ⟨⟨_, rfl, isSubject_subject⟩, hgroup, rfl, hrole⟩ (fun _ => trivial) trivial ⟨rfl, rfl⟩

lemma isRunBy_of_mem_objectsWith : ∀ r ∈ w.objectsWith c files,
    (w.object w.managerName (.configMap files)).IsRunBy c.manager r := by
  refine forall_mem_objectsWith trivial trivial trivial trivial trivial trivial
    (fun _ => trivial) trivial ⟨rfl, ?volumes, w.managerContainer c, rfl, ?mounts, ?command⟩
  case volumes => exact List.forall_mem_singleton.mpr rfl
  case mounts => exact List.forall_mem_singleton.mpr ⟨_, List.mem_cons_self, rfl⟩
  case command => exact ⟨_, List.mem_cons_self, rfl, by simp [managerContainer]⟩

lemma registrySet_mem (hinside : w.hasInClusterRegistry = true) :
    w.registrySet ∈ w.objectsWith c files := by
  simp [objectsWith, objectsBeforeFiles, hinside]

lemma registryAddress_of_inside (hinside : w.hasInClusterRegistry = true) :
    w.registryAddress = w.registryName ++ "-0." ++ w.serviceName ++ "." ++ w.inNamespace ++
      ".svc.cluster.local:" ++ toString w.spec.registry.effectivePort.toNat := by
  have hin : w.spec.registry.isInCluster = true := hinside
  have hcolon : ".svc.cluster.local:" = ".svc.cluster.local" ++ ":" := by decide
  rw [registryAddress, hin, if_pos rfl, registryHost, hcolon]
  simp only [String.append_assoc]

/-- The objects of a workflow whose files can be made refer to each other. -/
theorem objects_refer_to_each_other (hvalid : desired.validate c' = .ok w)
    (hfiles : w.managerFiles c = .ok files) :
    ∃ (objects : List Resource) (service account configMap : Resource),
      (allWanted (w.plan c)).map Wanted.object = objects.map .ok ∧
        w.AreLinked c files objects service account configMap := by
  have hword : isShellWord w.registryAddress = true := isShellWord_registryAddress hvalid
  obtain ⟨assembled, -, hassembled, -, -⟩ := managerFiles_eq_ok_iff.mp hfiles
  have hhas := hasFiles_of_managerFiles hfiles
  refine ⟨w.objectsWith c files, w.headlessService, w.serviceAccount,
    w.object w.managerName (.configMap files), objects_plan hfiles, ?_⟩
  exact {
    keys := keys_objectsWith c w files
    isHeadless := ⟨by simp [objectsWith, objectsBeforeFiles], _, rfl⟩
    isAccount := ⟨by simp [objectsWith, objectsBeforeFiles, accessControl], rfl⟩
    isConfigMap := ⟨by simp [objectsWith], rfl⟩
    fronts := fronts_of_mem_objectsWith
    selects := selects_of_mem_objectsWith
    actsThrough := actsThrough_of_mem_objectsWith
    isRunBy := isRunBy_of_mem_objectsWith
    registry := fun hinside => ⟨w.registrySet, registrySet_mem hinside, rfl, w.inNamespace, rfl,
      one_le_effectivePort _, registryAddress_of_inside hinside⟩
    document := fun index j hj hnone => by
      obtain ⟨a, ha, hmem⟩ := exists_mem_otherFiles hassembled hj
      obtain ⟨entries, registry, hread, hregistry, hhost⟩ := host_of_assemble ha hnone hword
      refine ⟨a, entries, registry, ha, hread, hregistry, hhost, fun hne => ?_⟩
      obtain ⟨a', ha', hfile⟩ := hhas.document index j hj hne
      rw [ha, Except.ok.injEq] at ha'
      rw [hfile, ha']
    entrypoint := by
      obtain ⟨text, htext, hfile⟩ := hhas.entrypoint
      obtain ⟨-, rfl⟩ := entrypoint_eq_ok_iff.mp htext
      exact ⟨_, hfile, by simp [filledEntrypointLines]⟩ }

/-- A workflow with one stage, which has no commands and names no host. -/
def resting : Workflow :=
  (stageless "training" "lab" "1f0a").withStages [JobStep.running "train" ""]

def restingJob : ResolvedJob :=
  (resting.withDefaults .standard).resolve .standard (JobStep.running "train" "")

lemma keys_restingJob : ∀ e ∈ restingJob.step.properties.toList, KeptByQuotes e.1.toList := by
  decide +kernel

lemma document_restingJob : ∃ text, restingJob.document "" = .ok text := by
  have hnames : ((restingJob.frontEntries keys_restingJob).map fun e => e.pair.1).Nodup := by
    have hall := restingJob.nodup_entries "" keys_restingJob (l := []) List.nil_prefix
    rwa [List.append_nil] at hall
  exact ⟨_, (ResolvedJob.document_of_tokens hnames (by decide +kernel)).1⟩

lemma validate_resting : resting.validate .standard = .ok (resting.withDefaults .standard) :=
  validate_of_violation?_eq_none (by decide +kernel)

lemma files_resting : ∃ files, (resting.withDefaults .standard).managerFiles .standard = .ok files := by
  obtain ⟨text, htext⟩ := document_restingJob
  have hassembled := (assemble_eq_ok_iff (c := .standard) (w := resting.withDefaults .standard)
    (j := JobStep.running "train" "")).mpr ⟨"", text, rfl, htext, rfl⟩
  refine exists_managerFiles (hasEntrypointValues_standard validate_resting) fun j hj => ?_
  obtain rfl := List.mem_singleton.mp hj
  exact ⟨_, hassembled⟩

theorem resting_objects_refer_to_each_other :
    resting.validate .standard = .ok (resting.withDefaults .standard) ∧
    ∃ files, (resting.withDefaults .standard).managerFiles .standard = .ok files ∧
      ∃ (objects : List Resource) (service account configMap : Resource),
        (allWanted ((resting.withDefaults .standard).plan .standard)).map Wanted.object =
          objects.map .ok ∧
        (resting.withDefaults .standard).AreLinked .standard files objects service account configMap := by
  obtain ⟨files, hfiles⟩ := files_resting
  exact ⟨validate_resting, files, hfiles, objects_refer_to_each_other validate_resting hfiles⟩

end Workflow

end WorkflowOperator
