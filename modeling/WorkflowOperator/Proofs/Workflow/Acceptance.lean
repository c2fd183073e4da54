import WorkflowOperator.Proofs.Decimal.Sign
import WorkflowOperator.Proofs.Text.Form
import WorkflowOperator.Proofs.Workflow.Filling

/-!
# Which workflows are valid

A workflow is accepted if its texts have their forms, its stages have different names and its numbers
are large enough. Unset fields are filled in before the rules are asked, yet what is filled in never
decides: whatever the configuration, the same workflows are valid.
-/

namespace WorkflowOperator

open Text

/-- The condition of an event is a number that is at least zero, or a comparison. -/
def Condition.IsAcceptable : Condition → Prop
  | .equals x => x.IsAtLeastZero
  | .expression s => ∃ k : Comparison, s.toList = k.written

structure WorkflowEvent.IsAcceptable (e : WorkflowEvent) : Prop where
  metric : e.metric ≠ ""
  action : e.action = "grow" ∨ e.action = "shrink" ∨ e.action = "finish-workflow"
  condition : ∀ k ∈ e.condition, k.IsAcceptable

/-- What is asked of a stage alone. -/
structure JobStep.IsAcceptable (j : JobStep) : Prop where
  name : HasJobNameForm j.name
  image : j.image ≠ ""
  arch : j.arch = "" ∨ j.arch = "amd64" ∨ j.arch = "arm64"
  workdir : ConsistsOf shellChars j.workdir.toList
  host : ConsistsOf shellChars j.registry.host.toList
  push : j.registry.push = "" ∨ HasTagForm j.registry.push
  pull : j.registry.pull = "" ∨ HasTagForm j.registry.pull

/-- What is asked of a workflow. -/
structure Workflow.IsAcceptable (w : Workflow) : Prop where
  name : HasLabelForm w.identity.name
  inNamespace : w.identity.inNamespace = "" ∨ HasLabelForm w.identity.inNamespace
  registryHost : ConsistsOf shellChars w.spec.registry.host.toList
  registryName : w.spec.registry.host = "" →
    w.spec.registry.name = "" ∨ HasLabelForm w.spec.registry.name
  jobNamePrefix : ConsistsOf shellChars w.spec.completion.jobNamePrefix.toList
  maxSize : 1 ≤ w.spec.cluster.maxSize.toNat
  threshold : 1 ≤ w.spec.completion.threshold.toNat
  stages : ∀ j ∈ w.spec.jobs, j.IsAcceptable
  distinct : w.spec.jobs.Pairwise fun a b => a.name ≠ b.name
  events : ∀ e ∈ w.spec.completion.events, e.IsAcceptable

def Keeps (rules : List Rule) : Prop := ∀ r ∈ rules, r.holds = true

lemma keeps_append_iff {rules rules' : List Rule} :
    Keeps (rules ++ rules') ↔ Keeps rules ∧ Keeps rules' := List.forall_mem_append

lemma keeps_cons_iff {r : Rule} {rules : List Rule} :
    Keeps (r :: rules) ↔ r.holds = true ∧ Keeps rules := List.forall_mem_cons

lemma keeps_nil : Keeps [] := List.forall_mem_nil _

lemma keeps_flatMap_iff {α : Type} {f : α → List Rule} {p : α → Prop}
    (h : ∀ x, Keeps (f x) ↔ p x) (xs : List α) :
    Keeps (xs.flatMap f) ↔ ∀ x ∈ xs, p x := by
  simp only [← h, Keeps, List.mem_flatMap]
  exact ⟨fun h x hx r hr => h r ⟨x, hx, hr⟩, fun h r ⟨x, hx, hr⟩ => h x hx r hr⟩

lemma isEmpty_eq_false_iff {s : String} : (!s.isEmpty) = true ↔ s ≠ "" := by
  rw [Bool.not_eq_true', ← Bool.not_eq_true, String.isEmpty_iff]

/-! ### Events -/

lemma Condition.holds_rule_iff (metric : String) (k : Condition) :
    (k.rule metric).holds = true ↔ k.IsAcceptable := by
  cases k with
  | equals x => exact x.isNonnegative_iff
  | expression s => exact isComparison_iff

lemma WorkflowEvent.keeps_rules_iff (e : WorkflowEvent) : Keeps e.rules ↔ e.IsAcceptable := by
  have haction : eventActions.contains e.action = true ↔
      e.action = "grow" ∨ e.action = "shrink" ∨ e.action = "finish-workflow" := by
    simp [eventActions]
  have hcondition : Keeps (e.condition.map (Condition.rule e.metric)).toList ↔
      ∀ k ∈ e.condition, k.IsAcceptable := by
    cases e.condition with
    | none => simp [Keeps]
    | some k => simp [Keeps, k.holds_rule_iff]
  rw [rules, keeps_append_iff, keeps_cons_iff, keeps_cons_iff, isEmpty_eq_false_iff, haction,
    hcondition]
  constructor
  · rintro ⟨⟨hmetric, haction, -⟩, hcondition⟩
    exact ⟨hmetric, haction, hcondition⟩
  · rintro ⟨hmetric, haction, hcondition⟩
    exact ⟨⟨hmetric, haction, keeps_nil⟩, hcondition⟩

/-! ### Stages -/

lemma isEmpty_or_iff {s : String} {b : Bool} {p : Prop} (h : b = true ↔ p) :
    (s.isEmpty || b) = true ↔ s = "" ∨ p := by
  rw [Bool.or_eq_true, String.isEmpty_iff, h]

lemma JobStep.keeps_rules_iff (earlier : List String) (index : Nat) (j : JobStep) :
    Keeps (j.rules earlier index) ↔ j.IsAcceptable ∧ j.name ∉ earlier := by
  have harch : (j.arch.isEmpty || supportedArches.contains j.arch) = true ↔
      j.arch = "" ∨ j.arch = "amd64" ∨ j.arch = "arm64" :=
    isEmpty_or_iff (by simp [supportedArches])
  have hname : HasJobNameForm j.name → j.name ≠ "" := by
    rintro ⟨first, rest, hcons, -⟩ hempty
    rw [hempty] at hcons
    cases hcons
  have hearlier : (!earlier.contains j.name) = true ↔ j.name ∉ earlier := by simp
  simp only [rules, keeps_cons_iff, isEmpty_eq_false_iff, isJobName_iff, hearlier, harch,
    isShellWord_iff, isEmpty_or_iff isTag_iff]
  constructor
  · rintro ⟨-, hform, hnew, himage, harch, hworkdir, hhost, hpush, hpull, -⟩
    exact ⟨⟨hform, himage, harch, hworkdir, hhost, hpush, hpull⟩, hnew⟩
  · rintro ⟨⟨hform, himage, harch, hworkdir, hhost, hpush, hpull⟩, hnew⟩
    exact ⟨hname hform, hform, hnew, himage, harch, hworkdir, hhost, hpush, hpull, keeps_nil⟩

lemma keeps_jobRules_iff (earlier : List String) (index : Nat) (jobs : List JobStep) :
    Keeps (jobRules earlier index jobs) ↔ (∀ j ∈ jobs, j.IsAcceptable) ∧
      (jobs.Pairwise fun a b => a.name ≠ b.name) ∧ ∀ j ∈ jobs, j.name ∉ earlier := by
  induction jobs generalizing earlier index with
  | nil => simp [jobRules, Keeps]
  | cons j jobs ih =>
    rw [jobRules, keeps_append_iff, JobStep.keeps_rules_iff, ih, List.forall_mem_cons,
      List.forall_mem_cons, List.pairwise_cons]
    simp only [List.mem_cons, not_or]
    constructor
    · rintro ⟨⟨hj, hnew⟩, hjobs, hdistinct, hlater⟩
      exact ⟨⟨hj, hjobs⟩, ⟨fun j' hj' => Ne.symm (hlater j' hj').1, hdistinct⟩, hnew,
        fun j' hj' => (hlater j' hj').2⟩
    · rintro ⟨⟨hj, hjobs⟩, ⟨hapart, hdistinct⟩, hnew, hlater⟩
      exact ⟨⟨hj, hnew⟩, hjobs, hdistinct, fun j' hj' => ⟨(hapart j' hj').symm, hlater j' hj'⟩⟩

/-! ### Workflows -/

namespace Workflow

lemma isLabel_effectiveName_iff (p : RegistryPolicy) :
    isLabel p.effectiveName = true ↔ p.name = "" ∨ HasLabelForm p.name := by
  unfold RegistryPolicy.effectiveName
  split
  next hempty => exact iff_of_true (by decide) (Or.inl (String.isEmpty_iff.mp hempty))
  next hname =>
    rw [String.isEmpty_iff] at hname
    rw [isLabel_iff, or_iff_right hname]

lemma registryName_rule_iff (c : Config) (p : RegistryPolicy) :
    (!(p.withDefaults c).isInCluster || isLabel (p.withDefaults c).name) = true ↔
      (p.host = "" → p.name = "" ∨ HasLabelForm p.name) := by
  rw [RegistryPolicy.isInCluster_withDefaults]
  cases h : p.isInCluster with
  | true =>
    have hhost : p.host = "" := String.isEmpty_iff.mp h
    rw [RegistryPolicy.withDefaults_of_inside c p h, Bool.not_true, Bool.false_or,
      isLabel_effectiveName_iff]
    exact ⟨fun hname _ => hname, fun hname => hname hhost⟩
  | false =>
    have hhost : p.host ≠ "" := by
      rwa [RegistryPolicy.isInCluster, Bool.eq_false_iff, ne_eq, String.isEmpty_iff] at h
    exact iff_of_true rfl fun hempty => absurd hempty hhost

lemma keeps_rules_iff (c : Config) (w : Workflow) :
    Keeps (w.withDefaults c).rules ↔ w.IsAcceptable := by
  have hregistry : (!(w.withDefaults c).hasInClusterRegistry ||
      isLabel (w.withDefaults c).spec.registry.name) = true ↔ _ :=
    registryName_rule_iff c w.spec.registry
  have hhost : (w.withDefaults c).spec.registry.host = w.spec.registry.host :=
    w.spec.registry.host_withDefaults c
  have hcount : ∀ n : UInt32, decide (1 ≤ n) = true ↔ 1 ≤ n.toNat := by
    intro n
    rw [decide_eq_true_eq, UInt32.le_iff_toNat_le]
    rfl
  have hevents := keeps_flatMap_iff WorkflowEvent.keeps_rules_iff w.spec.completion.events
  have hjobs := keeps_jobRules_iff [] 0 w.spec.jobs
  rw [rules, keeps_append_iff, keeps_append_iff]
  simp only [keeps_cons_iff, hregistry, hhost, isEmpty_eq_false_iff, isLabel_iff,
    isShellWord_iff, isEmpty_or_iff isLabel_iff, hcount]
  constructor
  · rintro ⟨⟨⟨-, hform, hspace, hhost, hname, hprefix, hsize, hthreshold, -⟩, hstages⟩, hrules⟩
    obtain ⟨hstages, hdistinct, -⟩ := hjobs.mp hstages
    exact ⟨hform, hspace, hhost, hname, hprefix, hsize, hthreshold, hstages, hdistinct,
      hevents.mp hrules⟩
  · rintro ⟨hform, hspace, hhost, hname, hprefix, hsize, hthreshold, hstages, hdistinct, hrules⟩
    refine ⟨⟨⟨hform.nonempty, hform, hspace, hhost, hname, hprefix, hsize, hthreshold, keeps_nil⟩,
      ?_⟩, hevents.mpr hrules⟩
    exact hjobs.mpr ⟨hstages, hdistinct, fun j _ => List.not_mem_nil⟩

lemma isAcceptable_of_validate {c : Config} {desired w : Workflow} (h : desired.validate c = .ok w) :
    desired.IsAcceptable := by
  obtain ⟨rfl, hnone⟩ := (validate_eq_ok_iff c desired w).mp h
  exact (keeps_rules_iff c desired).mp ((violation?_eq_none_iff _).mp hnone)

/-- A workflow is valid exactly if it is acceptable, whatever the configuration. -/
theorem validates_iff_acceptable (c : Config) (w : Workflow) :
    (∃ v, w.validate c = .ok v) ↔ w.IsAcceptable := by
  rw [← keeps_rules_iff c w, Keeps, ← violation?_eq_none_iff]
  constructor
  · rintro ⟨v, hv⟩
    obtain ⟨rfl, hnone⟩ := (validate_eq_ok_iff c w v).mp hv
    exact hnone
  · intro hnone
    exact ⟨_, (validate_eq_ok_iff c w _).mpr ⟨rfl, hnone⟩⟩

end Workflow

end WorkflowOperator
