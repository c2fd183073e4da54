import WorkflowOperator.Proofs.Converge.Desired
import WorkflowOperator.Proofs.Text.Lines
import WorkflowOperator.Proofs.Workflow.Acceptance
import WorkflowOperator.Proofs.Workflow.Filling

/-!
# The forms of names and addresses

The names of a workflow's objects are put together from its own name and fixed endings, so that they are
labels as well. The registry in the cluster is reached under a host that is made of labels with dots
between them, where only the namespace may be missing, and under a port.
-/

namespace WorkflowOperator

open Text

namespace Text

lemma consistsOf_labelChars {s : String} (h : s.toList.all isLabelChar = true) :
    ConsistsOf (lowerAlphanumerics ∪ {'-'}) s.toList :=
  (all_eq_true_iff_consistsOf isLabelChar_iff _).mp h

lemma HasLabelForm.append {s t : String} (hs : HasLabelForm s)
    (hchars : t.toList.all isLabelChar = true) (hstop : t.toList.getLast? ≠ some '-') :
    HasLabelForm (s ++ t) := by
  have hne : s.toList ≠ [] := by
    intro hnil
    exact hs.nonempty (String.toList_eq_nil_iff.mp hnil)
  refine ⟨?nonempty, ?chars, ?start, ?stop⟩
  case nonempty =>
    intro hempty
    exact hs.nonempty (String.append_eq_empty_iff.mp hempty).1
  case chars =>
    rw [String.toList_append]
    exact List.forall_mem_append.mpr ⟨hs.chars, consistsOf_labelChars hchars⟩
  case start =>
    rw [String.toList_append, List.head?_append_of_ne_nil _ hne]
    exact hs.start
  case stop =>
    rw [String.toList_append, List.getLast?_append]
    cases hlast : t.toList.getLast? with
    | none => exact hs.stop
    | some c => rwa [hlast] at hstop

lemma HasLabelForm.notMem {s : String} (h : HasLabelForm s) {c : Char}
    (hc : isLabelChar c = false) : c ∉ s.toList := by
  intro hmem
  rw [isLabelChar_iff.mpr (h.chars c hmem)] at hc
  cases hc

end Text

/-! ### Addresses -/

def hostParts (host : String) : List String := (parts '.' host.toList).map String.ofList

/-- A text is a host, a colon and a port. -/
structure IsAddress (s host : String) (port : Nat) : Prop where
  text : s = host ++ ":" ++ toString port
  host : ':' ∉ host.toList
  port : 1 ≤ port ∧ port ≤ 65535

lemma IsAddress.takeWhile_eq {s host : String} {port : Nat} (h : IsAddress s host port) :
    s.toList.takeWhile (· ≠ ':') = host.toList := by
  have hs : s.toList = host.toList ++ ':' :: (toString port).toList := by
    rw [h.text]
    simp
  have hall : ∀ c ∈ host.toList, decide (c ≠ ':') = true := by
    intro c hc
    rw [decide_eq_true_eq]
    rintro rfl
    exact h.host hc
  rw [hs, List.takeWhile_append_of_pos hall]
  simp

namespace Workflow

variable {c : Config} {desired w : Workflow}

lemma isAcceptable_of_valid (h : desired.validate c = .ok w) : w.IsAcceptable :=
  isAcceptable_of_validate (validate_of_validate h)

lemma hasLabelForm_registryName (h : w.IsAcceptable) (hinside : w.hasInClusterRegistry = true) :
    HasLabelForm w.registryName :=
  isLabel_iff.mp ((isLabel_effectiveName_iff _).mpr (h.registryName (String.isEmpty_iff.mp hinside)))

lemma hasLabelForm_of_mem_dependencyOrder (h : w.IsAcceptable) {key : ObjectKey}
    (hkey : key ∈ w.dependencyOrder) : HasLabelForm key.name := by
  have hname : HasLabelForm w.name := h.name
  obtain ⟨kind, name, rfl, hown | ⟨hinside, rfl⟩⟩ := exists_of_mem_dependencyOrder hkey
  · simp only [List.mem_cons, List.not_mem_nil, or_false] at hown
    rcases hown with rfl | rfl | rfl | rfl
    · exact hname
    · exact hname.append (by decide) (by decide)
    · exact hname.append (by decide) (by decide)
    · exact hname.append (by decide) (by decide)
  · exact hasLabelForm_registryName h hinside

/-- What the host of the registry in the cluster is joined from. -/
def registryHostParts (w : Workflow) : List String :=
  [w.registryName ++ "-0", w.name, w.inNamespace, "svc", "cluster", "local"]

lemma hasLabelForm_of_mem_registryHostParts (h : w.IsAcceptable)
    (hinside : w.hasInClusterRegistry = true) {part : String} (hpart : part ∈ w.registryHostParts) :
    HasLabelForm part ∨ (part = "" ∧ w.inNamespace = "") := by
  have hfixed : ∀ s ∈ ["svc", "cluster", "local"], HasLabelForm s := by
    simp only [← isLabel_iff]
    decide
  simp only [registryHostParts, List.mem_cons, List.not_mem_nil, or_false] at hpart
  rcases hpart with rfl | rfl | rfl | hsuffix
  · exact Or.inl ((hasLabelForm_registryName h hinside).append (by decide) (by decide))
  · exact Or.inl h.name
  · rcases h.inNamespace with hempty | hlabel
    · exact Or.inr ⟨hempty, hempty⟩
    · exact Or.inl hlabel
  · exact Or.inl (hfixed part (by simpa using hsuffix))

lemma toList_registryHost (w : Workflow) :
    w.registryHost.toList = joinParts '.' (w.registryHostParts.map String.toList) := by
  simp [registryHost, registryHostParts, joinParts, serviceName]

lemma notMem_of_mem_registryHostParts (h : w.IsAcceptable) (hinside : w.hasInClusterRegistry = true)
    {d : Char} (hd : isLabelChar d = false) :
    ∀ l ∈ w.registryHostParts.map String.toList, d ∉ l := by
  intro l hl
  obtain ⟨part, hpart, rfl⟩ := List.mem_map.mp hl
  rcases hasLabelForm_of_mem_registryHostParts h hinside hpart with hlabel | ⟨rfl, -⟩
  · exact hlabel.notMem hd
  · exact List.not_mem_nil

lemma hostParts_registryHost (h : w.IsAcceptable) (hinside : w.hasInClusterRegistry = true) :
    hostParts w.registryHost = w.registryHostParts := by
  -- no part holds a dot, so splitting undoes joining, also at an empty part
  have hdot := notMem_of_mem_registryHostParts h hinside (d := '.') (by decide)
  rw [hostParts, toList_registryHost, parts_joinParts (by simp [registryHostParts]) hdot,
    List.map_map]
  simp

lemma isAddress_registryAddress (h : w.IsAcceptable) (hinside : w.hasInClusterRegistry = true) :
    IsAddress w.registryAddress w.registryHost w.spec.registry.effectivePort.toNat := by
  refine ⟨if_pos hinside, ?host, one_le_effectivePort _, Nat.lt_succ_iff.mp (UInt16.toNat_lt _)⟩
  rw [toList_registryHost]
  exact notMem_joinParts (by decide) (notMem_of_mem_registryHostParts h hinside (by decide))

/-- The names of a valid workflow's objects are labels. If its registry is in the cluster then the host
of the registry's address is made of labels, where the place of the namespace stays empty if the workflow
has none. -/
theorem names_and_address_are_labelled (h : desired.validate c = .ok w) :
    (∀ key ∈ w.wantedKeys c, HasLabelForm key.name) ∧
    (w.hasInClusterRegistry = true → ∃ host port, IsAddress w.registryAddress host port ∧
      hostParts host =
        [w.registryName ++ "-0", w.name, w.inNamespace, "svc", "cluster", "local"] ∧
      ∀ part ∈ hostParts host, HasLabelForm part ∨ (part = "" ∧ w.inNamespace = "")) := by
  have hacceptable := isAcceptable_of_valid h
  refine ⟨fun key hkey => ?names, fun hinside => ?address⟩
  case names =>
    rw [wantedKeys_eq] at hkey
    exact hasLabelForm_of_mem_dependencyOrder hacceptable hkey
  case address =>
    have hparts := hostParts_registryHost hacceptable hinside
    refine ⟨w.registryHost, _, isAddress_registryAddress hacceptable hinside, hparts, ?_⟩
    rw [hparts]
    exact fun part hpart => hasLabelForm_of_mem_registryHostParts hacceptable hinside hpart

theorem lab_is_labelled :
    (stageless "training" "lab" "1f0a").validate .standard =
      .ok ((stageless "training" "lab" "1f0a").withDefaults .standard) ∧
    (∀ key ∈ ((stageless "training" "lab" "1f0a").withDefaults .standard).wantedKeys .standard,
      HasLabelForm key.name) ∧
    (((stageless "training" "lab" "1f0a").withDefaults .standard).hasInClusterRegistry = true →
      ∃ host port, IsAddress
        ((stageless "training" "lab" "1f0a").withDefaults .standard).registryAddress host port ∧
      hostParts host = ["registry-0", "training", "lab", "svc", "cluster", "local"] ∧
      ∀ part ∈ hostParts host, HasLabelForm part ∨ (part = "" ∧ "lab" = "")) :=
  ⟨validate_lab, names_and_address_are_labelled validate_lab⟩

/-- A workflow without a namespace is valid, and the host of its registry has an empty part. -/
theorem address_without_namespace_has_gap :
    ∃ w, (stageless "training" "" "1f0a").validate .standard = .ok w ∧
      w.hasInClusterRegistry = true ∧
      w.registryAddress = "registry-0.training..svc.cluster.local:5000" ∧
      ¬ ∃ host port, IsAddress w.registryAddress host port ∧
        ∀ part ∈ hostParts host, HasLabelForm part := by
  have haddress : ((stageless "training" "" "1f0a").withDefaults .standard).registryAddress =
      "registry-0.training..svc.cluster.local:5000" := by decide +kernel
  refine ⟨(stageless "training" "" "1f0a").withDefaults .standard,
    validate_of_violation?_eq_none (by decide +kernel), rfl, haddress, ?_⟩
  rintro ⟨host, port, hsplit, hforms⟩
  rw [haddress] at hsplit
  have hhost : host.toList = "registry-0.training..svc.cluster.local".toList := by
    rw [← hsplit.takeWhile_eq]
    decide
  have hgap : "" ∈ hostParts host := by
    rw [hostParts, hhost]
    decide
  exact (hforms "" hgap).nonempty rfl

end Workflow

end WorkflowOperator
