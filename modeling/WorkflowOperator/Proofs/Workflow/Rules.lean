import Mathlib.Tactic.Lemma
import WorkflowOperator.Desired.Owner
import WorkflowOperator.Job.Resolved
import WorkflowOperator.Proofs.Text.ShellWord

/-!
# What validation promises

A workflow that was validated is the given one with its unset fields filled in, and it keeps every
rule. The lemmas read single promises off the list of rules.
-/

namespace WorkflowOperator

/-- A stage that runs a script and says nothing else. -/
def JobStep.running (name script : String) : JobStep where
  name := name
  config := .unset
  registry := .unset
  arch := ""
  appConfig := ""
  properties := ∅
  image := "repo/img"
  interactive := false
  workdir := ""
  script := script

lemma mem_jobRules {jobs : List JobStep} {j : JobStep} (h : j ∈ jobs) (earlier : List String)
    (index : Nat) : ∃ before place, ∀ r ∈ j.rules before place, r ∈ jobRules earlier index jobs := by
  induction jobs generalizing earlier index with
  | nil => cases h
  | cons first rest ih =>
    simp only [jobRules, List.mem_append]
    rcases List.mem_cons.mp h with rfl | hrest
    · exact ⟨earlier, index, fun r hr => Or.inl hr⟩
    · obtain ⟨before, place, hrules⟩ := ih hrest (first.name :: earlier) (index + 1)
      exact ⟨before, place, fun r hr => Or.inr (hrules r hr)⟩

namespace Workflow

open Text

lemma violation?_eq_none_iff (w : Workflow) :
    w.violation? = none ↔ ∀ r ∈ w.rules, r.holds = true := by
  simp [violation?]

lemma validate_eq_ok_iff (c : Config) (desired w : Workflow) :
    desired.validate c = .ok w ↔ w = desired.withDefaults c ∧ w.violation? = none := by
  unfold validate
  cases h : (desired.withDefaults c).violation? with
  | none =>
    simp only [Except.ok.injEq]
    constructor
    · rintro rfl
      exact ⟨rfl, h⟩
    · rintro ⟨rfl, -⟩
      rfl
  | some v =>
    constructor
    · intro hv
      cases hv
    · rintro ⟨rfl, hw⟩
      rw [h] at hw
      cases hw

lemma validate_of_violation?_eq_none {c : Config} {w : Workflow}
    (h : (w.withDefaults c).violation? = none) : w.validate c = .ok (w.withDefaults c) :=
  (validate_eq_ok_iff c w _).mpr ⟨rfl, h⟩

lemma validate_eq_error {c : Config} {desired : Workflow} {e : Error}
    (h : desired.validate c = .error e) : ∃ v : Violation, e = v.toError := by
  unfold validate at h
  cases hv : (desired.withDefaults c).violation? with
  | none => simp [hv] at h
  | some v =>
    simp only [hv, Except.error.injEq] at h
    exact ⟨v, h.symm⟩

variable {c : Config} {desired w : Workflow}

lemma holds_of_validate (h : desired.validate c = .ok w) : ∀ r ∈ w.rules, r.holds = true :=
  (violation?_eq_none_iff w).mp ((validate_eq_ok_iff c desired w).mp h).2

lemma stage_holds_of_validate (h : desired.validate c = .ok w) {j : JobStep}
    (hj : j ∈ w.spec.jobs) : ∃ before place, ∀ r ∈ j.rules before place, r.holds = true := by
  obtain ⟨before, place, hrules⟩ := mem_jobRules hj [] 0
  exact ⟨before, place, fun r hr =>
    holds_of_validate h r (List.mem_append_left _ (List.mem_append_right _ (hrules r hr)))⟩

lemma identity_of_validate (h : desired.validate c = .ok w) : w.identity = desired.identity := by
  rw [((validate_eq_ok_iff c desired w).mp h).1]
  rfl

lemma name_ne_empty_of_validate (h : desired.validate c = .ok w) : w.name ≠ "" := by
  have hrule := holds_of_validate h ⟨!w.name.isEmpty, .noWorkflowName⟩ (by simp [rules])
  intro hname
  simp [hname] at hrule

lemma effectiveName_ne_empty (p : RegistryPolicy) : p.effectiveName ≠ "" := by
  unfold RegistryPolicy.effectiveName
  split
  · decide
  · rename_i h
    rwa [String.isEmpty_iff] at h

/-- A workflow without stages, for a cluster of one node. -/
def stageless (name inNamespace uid : String) : Workflow where
  apiVersion := "v1"
  kind := "Workflow"
  identity := ⟨name, inNamespace, some uid⟩
  spec := { WorkflowSpec.unset with cluster := ⟨1, false⟩, completion := ⟨1, "", []⟩ }

def withStages (w : Workflow) (jobs : List JobStep) : Workflow :=
  { w with spec := { w.spec with jobs } }

/-! ### Shell words -/

lemma isShellWord_name (h : desired.validate c = .ok w) : isShellWord w.name = true := by
  have hrule := holds_of_validate h ⟨isLabel w.name, .workflowName w.name⟩ (by simp [rules])
  exact isShellWord_of_isLabel hrule

lemma isShellWord_inNamespace (h : desired.validate c = .ok w) : isShellWord w.inNamespace = true := by
  have hrule := holds_of_validate h
    ⟨w.inNamespace.isEmpty || isLabel w.inNamespace, .namespaceName w.inNamespace⟩ (by simp [rules])
  rcases Bool.or_eq_true_iff.mp hrule with hempty | hlabel
  · exact isShellWord_of_isEmpty hempty
  · exact isShellWord_of_isLabel hlabel

lemma isShellWord_registryAddress (h : desired.validate c = .ok w) :
    isShellWord w.registryAddress = true := by
  have hhost := holds_of_validate h
    ⟨isShellWord w.spec.registry.host, .registryHost w.spec.registry.host⟩ (by simp [rules])
  simp only [registryAddress]
  split
  next hinside =>
    have hlabel := holds_of_validate h ⟨!w.hasInClusterRegistry || isLabel w.spec.registry.name,
      .registryName w.spec.registry.name⟩ (by simp [rules])
    have hin : w.hasInClusterRegistry = true := hinside
    rw [hin, Bool.not_true, Bool.false_or] at hlabel
    have hname : isShellWord w.registryName = true := by
      unfold registryName RegistryPolicy.effectiveName
      split
      · decide
      · exact isShellWord_of_isLabel hlabel
    have hfix : isShellWord "-0." = true ∧ isShellWord "." = true ∧
        isShellWord ".svc.cluster.local" = true ∧ isShellWord ":" = true := by decide
    simp only [registryHost, serviceName, isShellWord_append, hname, isShellWord_name h,
      isShellWord_inNamespace h, isShellWord_toString, hfix, and_self]
  next =>
    split
    · exact hhost
    · have hcolon : isShellWord ":" = true := by decide
      simp only [isShellWord_append, isShellWord_toString, hcolon, and_true]
      exact hhost

lemma isShellWord_jobid (h : desired.validate c = .ok w) : isShellWord w.jobid = true := by
  have hlead := holds_of_validate h ⟨isShellWord w.spec.completion.jobNamePrefix,
    .jobNamePrefix w.spec.completion.jobNamePrefix⟩ (by simp [rules])
  exact isShellWord_append.mpr ⟨hlead, isShellWord_name h⟩

lemma isShellWord_textOr {s fallback : String} (hs : isShellWord s = true)
    (hfallback : isShellWord fallback = true) : isShellWord (textOr s fallback) = true := by
  unfold textOr
  split
  · exact hfallback
  · exact hs

lemma isShellWord_of_mem_stageNames (h : desired.validate c = .ok w) :
    ∀ s ∈ w.spec.stageNames, isShellWord s = true := by
  intro s hs
  obtain ⟨j, hj, rfl⟩ := List.mem_map.mp hs
  obtain ⟨before, place, hholds⟩ := stage_holds_of_validate h hj
  exact isShellWord_of_isJobName
    (hholds ⟨isJobName j.name, .jobName j.name⟩ (by simp [JobStep.rules]))

lemma isShellWord_of_mem_jobs (h : desired.validate c = .ok w) {j : JobStep}
    (hj : j ∈ w.spec.jobs) : isShellWord j.arch = true ∧ isShellWord j.workdir = true ∧
      isShellWord j.registry.host = true ∧ isShellWord j.registry.pull = true ∧
        isShellWord j.registry.push = true := by
  obtain ⟨before, place, hholds⟩ := stage_holds_of_validate h hj
  have htag : ∀ s : String, (s.isEmpty || isTag s) = true → isShellWord s = true := by
    intro s hs
    rcases Bool.or_eq_true_iff.mp hs with hempty | htag
    · exact isShellWord_of_isEmpty hempty
    · exact isShellWord_of_isTag htag
  have harches : ∀ arch ∈ supportedArches, isShellWord arch = true := by decide
  simp only [JobStep.rules, List.forall_mem_cons] at hholds
  obtain ⟨-, -, -, -, harch, hworkdir, hhost, hpush, hpull, -⟩ := hholds
  refine ⟨?_, hworkdir, hhost, htag _ hpull, htag _ hpush⟩
  rcases Bool.or_eq_true_iff.mp harch with hempty | hmem
  · exact isShellWord_of_isEmpty hempty
  · exact harches _ (List.contains_iff_mem.mp hmem)

/-! ### Preparation -/

def ownerWith (w : Workflow) (uid : String) : OwnerReference :=
  ⟨w.apiVersion, w.kind, w.name, uid, true, true⟩

lemma owner_of_uid {uid : String} (h : w.identity.uid = some uid) :
    w.owner = .ok (w.ownerWith uid) := by
  simp [owner, h, ownerWith]

lemma owner_of_no_uid (h : w.identity.uid = none) :
    w.owner = .error (Violation.noUid w.name).toError := by
  simp [owner, h]

end Workflow

end WorkflowOperator
