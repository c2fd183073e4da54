import Mathlib.Tactic.ByContra
import WorkflowOperator.Converge.Pass
import WorkflowOperator.Proofs.Workflow.Rules

/-!
# Filling in what is unset

Validation sets what a workflow leaves unset and changes nothing else, so a workflow that was validated
once is not changed again. Names and addresses are derived with the same standards that are filled in:
they are the same before and after.
-/

namespace WorkflowOperator

lemma textOr_of_ne {s : String} (h : s ≠ "") (fallback : String) : textOr s fallback = s :=
  if_neg fun hempty => h (String.isEmpty_iff.mp hempty)

lemma textOr_textOr (s fallback : String) :
    textOr (textOr s fallback) fallback = textOr s fallback := by
  by_cases hs : s = ""
  · subst hs
    exact ite_self fallback
  · rw [textOr_of_ne hs, textOr_of_ne hs]

lemma eq_empty_of_textOr_ne {s fallback : String} (h : textOr s fallback ≠ s) : s = "" := by
  by_contra hs
  exact h (textOr_of_ne hs fallback)

lemma countOr_of_ne {n : UInt32} (h : n ≠ 0) (fallback : UInt32) : countOr n fallback = n :=
  if_neg h

lemma countOr_countOr (n fallback : UInt32) :
    countOr (countOr n fallback) fallback = countOr n fallback := by
  by_cases hn : n = 0
  · subst hn
    exact ite_self fallback
  · rw [countOr_of_ne hn, countOr_of_ne hn]

lemma eq_zero_of_countOr_ne {n fallback : UInt32} (h : countOr n fallback ≠ n) : n = 0 := by
  by_contra hn
  exact h (countOr_of_ne hn fallback)

/-! ### Policies -/

/-- A manager policy differs from another only where that one left a setting unset. -/
structure ManagerPolicy.IsFilledIn (before after : ManagerPolicy) : Prop where
  others : after = { before with
    image := after.image
    subdomain := after.subdomain
    replicas := after.replicas
    coresPerNode := after.coresPerNode
    pullPolicy := after.pullPolicy }
  image : after.image ≠ before.image → before.image = ""
  subdomain : after.subdomain ≠ before.subdomain → before.subdomain = ""
  replicas : after.replicas ≠ before.replicas → before.replicas = 0
  coresPerNode : after.coresPerNode ≠ before.coresPerNode → before.coresPerNode = 0
  pullPolicy : after.pullPolicy ≠ before.pullPolicy → before.pullPolicy = ""

/-- A registry policy differs from another only where that one left a setting unset, and in its name,
port and replicas only if it is in the cluster. -/
structure RegistryPolicy.IsFilledIn (before after : RegistryPolicy) : Prop where
  others : after = { before with
    image := after.image
    pullPolicy := after.pullPolicy
    name := after.name
    port := after.port
    replicas := after.replicas }
  image : after.image ≠ before.image → before.image = ""
  pullPolicy : after.pullPolicy ≠ before.pullPolicy → before.pullPolicy = ""
  name : after.name ≠ before.name → before.host = "" ∧ before.name = ""
  port : after.port ≠ before.port → before.host = "" ∧ before.port = 0
  replicas : after.replicas ≠ before.replicas → before.host = "" ∧ before.replicas = 0

namespace ManagerPolicy

variable (c : Config) (p : ManagerPolicy)

lemma withDefaults_withDefaults : (p.withDefaults c).withDefaults c = p.withDefaults c := by
  simp only [withDefaults, textOr_textOr, countOr_countOr]

lemma isFilledIn_withDefaults : p.IsFilledIn (p.withDefaults c) :=
  ⟨rfl, eq_empty_of_textOr_ne, eq_empty_of_textOr_ne, eq_zero_of_countOr_ne, eq_zero_of_countOr_ne,
    eq_empty_of_textOr_ne⟩

end ManagerPolicy

namespace RegistryPolicy

variable (c : Config) (p : RegistryPolicy)

lemma withDefaults_of_inside (h : p.isInCluster = true) : p.withDefaults c = { p with
    image := textOr p.image c.images.registry
    pullPolicy := textOr p.pullPolicy standardPullPolicy
    port := p.effectivePort
    name := p.effectiveName
    replicas := countOr p.replicas 1 } := if_pos h

lemma withDefaults_of_outside (h : p.isInCluster = false) : p.withDefaults c = { p with
    image := textOr p.image c.images.registry
    pullPolicy := textOr p.pullPolicy standardPullPolicy } :=
  if_neg (Bool.eq_false_iff.mp h)

/-- Where the registry is decides what is filled in for its name, port and replicas only. -/
lemma withDefaults_eq : p.withDefaults c = { p with
    image := textOr p.image c.images.registry
    pullPolicy := textOr p.pullPolicy standardPullPolicy
    name := (p.withDefaults c).name
    port := (p.withDefaults c).port
    replicas := (p.withDefaults c).replicas } := by
  cases h : p.isInCluster with
  | true => rw [withDefaults_of_inside c p h]
  | false => rw [withDefaults_of_outside c p h]

lemma host_withDefaults : (p.withDefaults c).host = p.host := by
  rw [withDefaults_eq]

lemma image_withDefaults : (p.withDefaults c).image = textOr p.image c.images.registry := by
  rw [withDefaults_eq]

lemma pullPolicy_withDefaults :
    (p.withDefaults c).pullPolicy = textOr p.pullPolicy standardPullPolicy := by
  rw [withDefaults_eq]

lemma isInCluster_withDefaults : (p.withDefaults c).isInCluster = p.isInCluster := by
  rw [isInCluster, host_withDefaults, isInCluster]

lemma effectivePort_of_ne {p : RegistryPolicy} (h : p.port ≠ 0) : p.effectivePort = p.port :=
  if_neg h

lemma effectiveName_withDefaults : (p.withDefaults c).effectiveName = p.effectiveName := by
  cases h : p.isInCluster with
  | true =>
    rw [withDefaults_of_inside c p h]
    exact textOr_textOr p.name standardRegistryName
  | false => rw [withDefaults_of_outside c p h, effectiveName, effectiveName]

lemma effectivePort_withDefaults : (p.withDefaults c).effectivePort = p.effectivePort := by
  cases h : p.isInCluster with
  | true =>
    rw [withDefaults_of_inside c p h]
    by_cases hport : p.port = 0
    · simp [effectivePort, hport]
    · simp [effectivePort, hport]
  | false => rw [withDefaults_of_outside c p h, effectivePort, effectivePort]

lemma withDefaults_withDefaults : (p.withDefaults c).withDefaults c = p.withDefaults c := by
  have hname := effectiveName_withDefaults c p
  have hport := effectivePort_withDefaults c p
  cases h : p.isInCluster with
  | true =>
    rw [withDefaults_of_inside c (p.withDefaults c) (by rw [isInCluster_withDefaults, h]), hname,
      hport, withDefaults_of_inside c p h]
    simp only [textOr_textOr, countOr_countOr]
  | false =>
    rw [withDefaults_of_outside c (p.withDefaults c) (by rw [isInCluster_withDefaults, h]),
      withDefaults_of_outside c p h]
    simp only [textOr_textOr]

lemma isFilledIn_withDefaults : p.IsFilledIn (p.withDefaults c) := by
  cases h : p.isInCluster with
  | true =>
    have hhost : p.host = "" := String.isEmpty_iff.mp h
    rw [withDefaults_of_inside c p h]
    refine ⟨rfl, eq_empty_of_textOr_ne, eq_empty_of_textOr_ne, fun hne => ⟨hhost, ?name⟩,
      fun hne => ⟨hhost, ?port⟩, fun hne => ⟨hhost, eq_zero_of_countOr_ne hne⟩⟩
    case name => exact eq_empty_of_textOr_ne hne
    case port =>
      by_contra hport
      exact hne (effectivePort_of_ne hport)
  | false =>
    rw [withDefaults_of_outside c p h]
    exact ⟨rfl, eq_empty_of_textOr_ne, eq_empty_of_textOr_ne, fun hne => absurd rfl hne,
      fun hne => absurd rfl hne, fun hne => absurd rfl hne⟩

end RegistryPolicy

/-! ### Workflows -/

namespace Workflow

/-- A workflow differs from another only where that one left a setting of the manager or of the registry
unset. -/
structure IsFilledIn (before after : Workflow) : Prop where
  others : after = { before with spec := { before.spec with
    manager := after.spec.manager
    registry := after.spec.registry } }
  manager : before.spec.manager.IsFilledIn after.spec.manager
  registry : before.spec.registry.IsFilledIn after.spec.registry

/-- Two workflows give their objects the same names and reach the registry at the same address. -/
structure IsNamedLike (w w' : Workflow) : Prop where
  managerName : w'.managerName = w.managerName
  clusterRoleName : w'.clusterRoleName = w.clusterRoleName
  roleName : w'.roleName = w.roleName
  serviceName : w'.serviceName = w.serviceName
  serviceAccountName : w'.serviceAccountName = w.serviceAccountName
  registryName : w'.registryName = w.registryName
  selector : w'.selector = w.selector
  jobid : w'.jobid = w.jobid
  stageNames : w'.spec.stageNames = w.spec.stageNames
  hasInClusterRegistry : w'.hasInClusterRegistry = w.hasInClusterRegistry
  registryAddress : w'.registryAddress = w.registryAddress

lemma one_le_effectivePort (p : RegistryPolicy) : 1 ≤ p.effectivePort.toNat := by
  unfold RegistryPolicy.effectivePort
  split
  next => decide
  next hne => exact Nat.one_le_iff_ne_zero.mpr fun hzero => hne (UInt16.toNat_inj.mp hzero)

variable {c : Config} {desired w : Workflow}

lemma withDefaults_withDefaults (c : Config) (w : Workflow) :
    (w.withDefaults c).withDefaults c = w.withDefaults c := by
  simp only [withDefaults, ManagerPolicy.withDefaults_withDefaults,
    RegistryPolicy.withDefaults_withDefaults]

lemma isFilledIn_withDefaults (c : Config) (w : Workflow) : w.IsFilledIn (w.withDefaults c) :=
  ⟨rfl, w.spec.manager.isFilledIn_withDefaults c, w.spec.registry.isFilledIn_withDefaults c⟩

lemma registryAddress_withDefaults (c : Config) (w : Workflow) :
    (w.withDefaults c).registryAddress = w.registryAddress := by
  have hspec : (w.withDefaults c).spec.registry = w.spec.registry.withDefaults c := rfl
  have hhost : (w.withDefaults c).registryHost = w.registryHost := by
    rw [registryHost, registryName, hspec, RegistryPolicy.effectiveName_withDefaults]
    rfl
  unfold registryAddress
  dsimp only
  rw [hspec, hhost, RegistryPolicy.isInCluster_withDefaults, RegistryPolicy.host_withDefaults,
    RegistryPolicy.effectivePort_withDefaults]
  cases h : w.spec.registry.isInCluster with
  | true => rfl
  | false =>
    -- The port of a registry outside stays as it was given, also if it is zero.
    have hport := congrArg RegistryPolicy.port
      (RegistryPolicy.withDefaults_of_outside c w.spec.registry h)
    rw [hport]

lemma isNamedLike_withDefaults (c : Config) (w : Workflow) : w.IsNamedLike (w.withDefaults c) where
  managerName := rfl
  clusterRoleName := rfl
  roleName := rfl
  serviceName := rfl
  serviceAccountName := rfl
  registryName := w.spec.registry.effectiveName_withDefaults c
  selector := rfl
  jobid := rfl
  stageNames := rfl
  hasInClusterRegistry := w.spec.registry.isInCluster_withDefaults c
  registryAddress := registryAddress_withDefaults c w

lemma validate_of_validate (h : desired.validate c = .ok w) : w.validate c = .ok w := by
  obtain ⟨rfl, hnone⟩ := (validate_eq_ok_iff c desired w).mp h
  exact (validate_eq_ok_iff c _ _).mpr ⟨(withDefaults_withDefaults c desired).symm, hnone⟩

lemma prepare_of_validate (h : desired.validate c = .ok w) : w.prepare c = desired.prepare c := by
  rw [prepare, prepare, h, validate_of_validate h]

/-- Validation fills in what is unset and does no more. What it hands out has the names and the address
of the given workflow, is valid as it is, and converges by the same pass. -/
theorem validation_only_fills_in (h : desired.validate c = .ok w) :
    desired.IsFilledIn w ∧ desired.IsNamedLike w ∧ w.validate c = .ok w ∧
      w.converge c = desired.converge c := by
  have hfilled : w = desired.withDefaults c := ((validate_eq_ok_iff c desired w).mp h).1
  refine ⟨?filled, ?named, validate_of_validate h, ?pass⟩
  case filled =>
    rw [hfilled]
    exact isFilledIn_withDefaults c desired
  case named =>
    rw [hfilled]
    exact isNamedLike_withDefaults c desired
  case pass =>
    have hname : w.name = desired.name := by
      rw [hfilled]
      rfl
    rw [converge, converge, prepare_of_validate h, hname]

/-- A workflow that names a registry outside the cluster and the image of its manager. -/
def borrowing : Workflow :=
  let w := stageless "training" "lab" "1f0a"
  { w with spec := { w.spec with
    registry := { RegistryPolicy.unset with host := "registry.example.com" }
    manager := { ManagerPolicy.unset with image := "repo/manager" } } }

lemma validate_borrowing : borrowing.validate .standard = .ok (borrowing.withDefaults .standard) :=
  validate_of_violation?_eq_none (by decide +kernel)

theorem borrowing_is_filled_in :
    borrowing.validate .standard = .ok (borrowing.withDefaults .standard) ∧
    borrowing.IsFilledIn (borrowing.withDefaults .standard) ∧
    borrowing.IsNamedLike (borrowing.withDefaults .standard) ∧
    (borrowing.withDefaults .standard).validate .standard =
      .ok (borrowing.withDefaults .standard) ∧
    (borrowing.withDefaults .standard).converge .standard = borrowing.converge .standard :=
  ⟨validate_borrowing, validation_only_fills_in validate_borrowing⟩

end Workflow

end WorkflowOperator
