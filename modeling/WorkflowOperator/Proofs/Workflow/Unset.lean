import WorkflowOperator.Config.Reading
import WorkflowOperator.Proofs.Workflow.Acceptance
import WorkflowOperator.Proofs.Workflow.Filling

/-!
# What may stay unset

Some of what is filled in is a standard of its own and is always set. The rest is taken from the
configuration as it is, and the configuration is held against no rule: what it leaves empty or at zero
stays so, and an architecture that no stage may name can come from it.
-/

namespace WorkflowOperator

open Text

lemma textOr_ne_empty_iff {s fallback : String} :
    textOr s fallback ≠ "" ↔ (s = "" → fallback ≠ "") := by
  by_cases hs : s = ""
  · subst hs
    exact ⟨fun h _ => h, fun h => h rfl⟩
  · rw [textOr_of_ne hs]
    exact ⟨fun _ hempty => absurd hempty hs, fun _ => hs⟩

lemma one_le_countOr_iff {n fallback : UInt32} :
    1 ≤ (countOr n fallback).toNat ↔ (n = 0 → 1 ≤ fallback.toNat) := by
  by_cases hn : n = 0
  · subst hn
    exact ⟨fun h _ => h, fun h => h rfl⟩
  · rw [countOr_of_ne hn]
    have hpos : 1 ≤ n.toNat := Nat.one_le_iff_ne_zero.mpr fun hzero => hn (UInt32.toNat_inj.mp hzero)
    exact ⟨fun _ hzero => absurd hzero hn, fun _ => hpos⟩

/-! ### Settings -/

/-- A stage has all that it needs. -/
structure JobStep.IsComplete (j : JobStep) : Prop where
  nodes : 1 ≤ j.config.nodes.toNat
  coresPerTask : 1 ≤ j.config.coresPerTask.toNat
  arch : j.arch = "amd64" ∨ j.arch = "arm64"
  workdir : j.workdir ≠ ""
  gpuLabel : j.config.gpuLabel ≠ ""
  pullPolicy : j.config.pullPolicy ≠ ""

/-- The settings with a standard of their own are set. -/
structure Workflow.HasStandards (w : Workflow) : Prop where
  managerPullPolicy : w.spec.manager.pullPolicy ≠ ""
  registryPullPolicy : w.spec.registry.pullPolicy ≠ ""
  subdomain : w.spec.manager.subdomain ≠ ""
  managerReplicas : 1 ≤ w.spec.manager.replicas.toNat
  coresPerNode : 1 ≤ w.spec.manager.coresPerNode.toNat
  registryPort : w.hasInClusterRegistry = true → 1 ≤ w.spec.registry.port.toNat
  registryReplicas : w.hasInClusterRegistry = true → 1 ≤ w.spec.registry.replicas.toNat
  registryName : w.hasInClusterRegistry = true → HasLabelForm w.spec.registry.name

/-- A workflow and its stages, as they are run, have all that they need. -/
structure Workflow.IsComplete (c : Config) (w : Workflow) : Prop extends w.HasStandards where
  managerImage : w.spec.manager.image ≠ ""
  registryImage : w.spec.registry.image ≠ ""
  stages : ∀ j ∈ w.spec.jobs, (w.resolve c j).step.IsComplete

/-- Defaults give a stage what it leaves open. -/
structure JobDefaults.Completes (d : JobDefaults) (j : JobStep) : Prop where
  nodes : j.config.nodes = 0 → 1 ≤ d.nodes.toNat
  coresPerTask : j.config.coresPerTask = 0 → 1 ≤ d.coresPerTask.toNat
  arch : j.arch = "" → d.arch = "amd64" ∨ d.arch = "arm64"
  workdir : j.workdir = "" → d.workdir ≠ ""
  gpuLabel : j.config.gpuLabel = "" → d.gpuLabel ≠ ""
  pullPolicy : j.config.pullPolicy = "" → d.pullPolicy ≠ ""

/-- A configuration gives a workflow and its stages what they leave open. -/
structure Config.Completes (c : Config) (w : Workflow) : Prop where
  managerImage : w.spec.manager.image = "" → c.images.manager ≠ ""
  registryImage : w.spec.registry.image = "" → c.images.registry ≠ ""
  stages : ∀ j ∈ w.spec.jobs, c.jobs.Completes j

lemma JobStep.isComplete_withDefaults_iff {j : JobStep} (h : j.IsAcceptable) (d : JobDefaults) :
    (j.withDefaults d).IsComplete ↔ d.Completes j := by
  have harch : (textOr j.arch d.arch = "amd64" ∨ textOr j.arch d.arch = "arm64") ↔
      (j.arch = "" → d.arch = "amd64" ∨ d.arch = "arm64") := by
    rcases h.arch with hempty | hgiven
    · rw [hempty]
      exact ⟨fun h _ => h, fun h => h rfl⟩
    · have hne : j.arch ≠ "" := by
        rintro hempty
        rw [hempty] at hgiven
        exact absurd hgiven (by decide)
      rw [textOr_of_ne hne]
      exact ⟨fun _ hempty => absurd hempty hne, fun _ => hgiven⟩
  constructor
  · rintro ⟨hnodes, hcores, hsupported, hworkdir, hlabel, hpull⟩
    exact ⟨one_le_countOr_iff.mp hnodes, one_le_countOr_iff.mp hcores, harch.mp hsupported,
      textOr_ne_empty_iff.mp hworkdir, textOr_ne_empty_iff.mp hlabel, textOr_ne_empty_iff.mp hpull⟩
  · rintro ⟨hnodes, hcores, hsupported, hworkdir, hlabel, hpull⟩
    exact ⟨one_le_countOr_iff.mpr hnodes, one_le_countOr_iff.mpr hcores, harch.mpr hsupported,
      textOr_ne_empty_iff.mpr hworkdir, textOr_ne_empty_iff.mpr hlabel,
      textOr_ne_empty_iff.mpr hpull⟩

namespace Workflow

variable {c : Config} {desired w : Workflow}

lemma hasStandards_withDefaults (h : desired.IsAcceptable) (c : Config) :
    (desired.withDefaults c).HasStandards := by
  have hregistry : (desired.withDefaults c).hasInClusterRegistry = true →
      (desired.withDefaults c).spec.registry = { desired.spec.registry with
        image := textOr desired.spec.registry.image c.images.registry
        pullPolicy := textOr desired.spec.registry.pullPolicy standardPullPolicy
        port := desired.spec.registry.effectivePort
        name := desired.spec.registry.effectiveName
        replicas := countOr desired.spec.registry.replicas 1 } := by
    intro hinside
    refine RegistryPolicy.withDefaults_of_inside c _ ?_
    rwa [← RegistryPolicy.isInCluster_withDefaults c]
  exact {
    managerPullPolicy := textOr_ne_empty_iff.mpr fun _ => by decide
    registryPullPolicy := ne_of_eq_of_ne (desired.spec.registry.pullPolicy_withDefaults c)
      (textOr_ne_empty_iff.mpr fun _ => by decide)
    subdomain := textOr_ne_empty_iff.mpr fun _ => by decide
    managerReplicas := one_le_countOr_iff.mpr fun _ => by decide
    coresPerNode := one_le_countOr_iff.mpr fun _ => by decide
    registryPort := fun hinside => by
      rw [hregistry hinside]
      exact one_le_effectivePort _
    registryReplicas := fun hinside => by
      rw [hregistry hinside]
      exact one_le_countOr_iff.mpr fun _ => by decide
    registryName := fun hinside => by
      rw [hregistry hinside]
      have hhost : desired.spec.registry.host = "" := by
        rw [← RegistryPolicy.host_withDefaults c]
        exact String.isEmpty_iff.mp hinside
      exact isLabel_iff.mp ((isLabel_effectiveName_iff _).mpr (h.registryName hhost)) }

/-- In a valid workflow the settings with a standard of their own are set. The others are set if and only
if the workflow sets them or the configuration does, and an architecture that a stage leaves open is
supported if and only if the configured one is. -/
theorem complete_iff_configured (h : desired.validate c = .ok w) :
    w.HasStandards ∧ (w.IsComplete c ↔ c.Completes desired) := by
  have hacceptable := isAcceptable_of_validate h
  obtain ⟨rfl, -⟩ := (validate_eq_ok_iff c desired w).mp h
  have hstandards := hasStandards_withDefaults hacceptable c
  have hstages : (∀ j ∈ desired.spec.jobs, (j.withDefaults c.jobs).IsComplete) ↔
      ∀ j ∈ desired.spec.jobs, c.jobs.Completes j :=
    forall₂_congr fun j hj => JobStep.isComplete_withDefaults_iff (hacceptable.stages j hj) c.jobs
  have hregistry : (desired.withDefaults c).spec.registry.image ≠ "" ↔ _ :=
    desired.spec.registry.image_withDefaults c ▸ textOr_ne_empty_iff
  refine ⟨hstandards, ?_, ?_⟩
  · intro hcomplete
    exact ⟨textOr_ne_empty_iff.mp hcomplete.managerImage, hregistry.mp hcomplete.registryImage,
      hstages.mp hcomplete.stages⟩
  · intro hcompletes
    exact ⟨hstandards, textOr_ne_empty_iff.mpr hcompletes.managerImage,
      hregistry.mpr hcompletes.registryImage, hstages.mpr hcompletes.stages⟩

end Workflow

/-- The built-in configuration with another architecture for the stages that name none. -/
def Config.onArch (arch : String) : Config :=
  { Config.standard with jobs := { JobDefaults.standard with arch } }

namespace Workflow

/-- A workflow with one stage, for an architecture or for whichever is configured. -/
def forArch (arch : String) : Workflow :=
  (stageless "training" "lab" "1f0a").withStages
    [{ JobStep.running "train" "./train.sh" with arch }]

theorem complete_on_arm :
    (forArch "").validate (.onArch "arm64") = .ok ((forArch "").withDefaults (.onArch "arm64")) ∧
    ((forArch "").withDefaults (.onArch "arm64")).HasStandards ∧
    (((forArch "").withDefaults (.onArch "arm64")).IsComplete (.onArch "arm64") ↔
      (Config.onArch "arm64").Completes (forArch "")) := by
  have hvalid : (forArch "").validate (.onArch "arm64") = _ :=
    validate_of_violation?_eq_none (by decide +kernel)
  exact ⟨hvalid, complete_iff_configured hvalid⟩

/-- A stage is refused that names an architecture for which there is no registry client, but one that
names none gets it from the configuration file. -/
theorem unsupported_arch_is_filled_in :
    (forArch "s390x").validate (.onArch "s390x") =
      .error (Violation.arch "train" "s390x").toError ∧
    Config.ofFile (fun _ => none) "config.toml" (.ok "[jobs]\narch = \"s390x\"\n") =
      .ok (.onArch "s390x") ∧
    (forArch "").validate (.onArch "s390x") = .ok ((forArch "").withDefaults (.onArch "s390x")) ∧
    ¬ ((forArch "").withDefaults (.onArch "s390x")).IsComplete (.onArch "s390x") := by
  have hrefused : ((forArch "s390x").withDefaults (.onArch "s390x")).violation? =
      some (.arch "train" "s390x") := by decide +kernel
  have hread : Config.ofText? "[jobs]\narch = \"s390x\"\n" = some (.onArch "s390x") := by
    decide +kernel
  refine ⟨?refused, ?read, validate_of_violation?_eq_none (by decide +kernel), ?incomplete⟩
  case refused => rw [validate, hrefused]
  case read =>
    rw [Config.ofFile, hread]
    rfl
  case incomplete =>
    intro hcomplete
    have harch := (hcomplete.stages _ List.mem_cons_self).arch
    exact absurd harch (by decide)

end Workflow

end WorkflowOperator
