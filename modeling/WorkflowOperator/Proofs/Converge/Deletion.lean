import WorkflowOperator.Proofs.Converge.Calls
import WorkflowOperator.Proofs.Converge.Failing
import WorkflowOperator.Proofs.Store.Ownership

/-!
# Deleting a workflow

Whatever the passes toward workflows of one identifier want, and wherever they fail, all that they
create names this identifier as its owner, and what was in the store before stays as it was. So a
collection of what the identifier owns takes just the objects that the passes have created.
-/

namespace WorkflowOperator

/-- The object that a call has created, as it was given. -/
def Call.made? : Call → Option Resource
  | .create r (.ok _) => some r
  | _ => none

lemma Call.made?_eq_some_iff {call : Call} {r : Resource} :
    call.made? = some r ↔ ∃ r', call = .create r (.ok r') := by
  constructor
  · intro h
    cases call with
    | lookup key reply => cases h
    | create r' reply =>
      cases reply with
      | error e => cases h
      | ok r'' =>
        cases h
        exact ⟨r'', rfl⟩
  · rintro ⟨r', rfl⟩
    rfl

/-! ### What passes create -/

section Creating
variable (stamps : Nat → Stamp)

lemma failing_lookup (faults : Nat → Option Error) (key : ObjectKey) (s : Store) (n : Nat) :
    (((Store.backend stamps).failing faults).lookup key (s, n)).2 = (s, n + 1) := by
  simp only [Backend.failing, Store.backend]
  cases faults n <;> rfl

lemma failing_create (faults : Nat → Option Error) (r : Resource) (s : Store) (n : Nat) :
    (∃ e, ((Store.backend stamps).failing faults).create r (s, n) = (.error e, s, n + 1)) ∨
    s.contains r.key = false ∧ ∃ r', ((Store.backend stamps).failing faults).create r (s, n) =
      (.ok r', s.put (stamps s.journal.length) r, n + 1) := by
  cases hfault : faults n with
  | some e => exact Or.inl ⟨e, by simp [Backend.failing, hfault]⟩
  | none =>
    cases hrefuse : s.refusal? r.key with
    | some e =>
      exact Or.inl ⟨e, by simp [Backend.failing, hfault, Store.backend, Store.create, hrefuse]⟩
    | none =>
      refine Or.inr ⟨(Store.refusal?_eq_none_iff.mp hrefuse).2, r.stamped (stamps s.journal.length), ?_⟩
      simp [Backend.failing, hfault, Store.backend, Store.create, hrefuse]

lemma grownBy_run {α : Type} (faults : Nat → Option Error) (p : Pass α) (s : Store) (n : Nat) :
    let b := (Store.backend stamps).failing faults
    s.GrownBy stamps ((p.calls b (s, n)).filterMap Call.made?) (p.run b (s, n)).state.1 := by
  intro b
  induction p generalizing s n with
  | done a => exact .refl s
  | lookup key next ih =>
    rw [run_lookup, failing_lookup]
    simpa [Pass.calls, List.filterMap_cons, Call.made?, failing_lookup, b] using ih _ s (n + 1)
  | create r next ih =>
    rw [run_create]
    rcases failing_create stamps faults r s n with ⟨e, hcreate⟩ | ⟨hs, r', hcreate⟩
    · simpa [Pass.calls, List.filterMap_cons, Call.made?, hcreate, b] using ih (.error e) s (n + 1)
    · have hrest := (Store.grownBy_put hs).trans (ih (.ok r') (s.put (stamps s.journal.length) r)
        (n + 1))
      simpa [Pass.calls, List.filterMap_cons, Call.made?, hcreate, b] using hrest
  | tell e next ih => exact ih s n

lemma grownBy_attempt {a : Attempt} {uid : String} (hu : a.desired.identity.uid = some uid)
    (s : Store) :
    ∃ made, s.GrownBy stamps made (s.attempt stamps a).state.1 ∧
      ∀ r ∈ made, ∃ o ∈ r.metadata.owners, o.uid = uid := by
  refine ⟨_, grownBy_run stamps a.faults (a.desired.converge a.config) s 0, ?_⟩
  intro r hr
  obtain ⟨call, hcall, hmade⟩ := List.mem_filterMap.mp hr
  obtain ⟨r', rfl⟩ := Call.made?_eq_some_iff.mp hmade
  cases hvalid : a.desired.validate a.config with
  | error e =>
    rw [(calls_of_prepare_error _ (prepare_of_validate_error hvalid) _).1] at hcall
    cases hcall
  | ok w =>
    have huw : w.identity.uid = some uid := by rw [Workflow.identity_of_validate hvalid, hu]
    exact ⟨w.ownerWith uid, by simp [(marked_of_mem_calls _ hvalid huw _ hcall).2], rfl⟩

lemma grownBy_afterAttempts {attempts : List Attempt} {uid : String}
    (hu : ∀ a ∈ attempts, a.desired.identity.uid = some uid) (s : Store) :
    ∃ made, s.GrownBy stamps made (s.afterAttempts stamps attempts) ∧
      ∀ r ∈ made, ∃ o ∈ r.metadata.owners, o.uid = uid := by
  induction attempts generalizing s with
  | nil => exact ⟨[], .refl s, by simp⟩
  | cons a rest ih =>
    obtain ⟨made, hgrown, howned⟩ := grownBy_attempt stamps (hu a List.mem_cons_self) s
    obtain ⟨more, hgrown', howned'⟩ := ih (fun b hb => hu b (List.mem_cons_of_mem a hb))
      (s.attempt stamps a).state.1
    refine ⟨made ++ more, hgrown.trans hgrown', fun r hr => ?_⟩
    rcases List.mem_append.mp hr with hr | hr
    · exact howned r hr
    · exact howned' r hr

end Creating

/-! ### What the identifier owns -/

section Deleting
variable {stamps : Nat → Stamp} {s s' : Store} {made : List Resource} {uid : String}

/-- If an identifier owns nothing, and nothing names the identifiers of new objects, then after the
creation of objects that name the identifier it owns just these. -/
lemma owns_of_grownBy (h : s.GrownBy stamps made s')
    (howned : ∀ r ∈ made, ∃ o ∈ r.metadata.owners, o.uid = uid)
    (hfree : ∀ key, ¬ Store.Owns s.objects uid key)
    (hfresh : ∀ n, s.journal.length ≤ n → ∀ key, ¬ Store.Names s.objects key (stamps n).uid)
    (key : ObjectKey) : Store.Owns s'.objects uid key ↔ key ∈ made.map Resource.key := by
  have hgained := h.gained
  have hold : ∀ {key uid'}, key ∉ made.map Resource.key → Store.Names s'.objects key uid' →
      Store.Names s.objects key uid' := by
    rintro key uid' hkey ⟨r, hr, hnames⟩
    rw [hgained.nothingElse key hkey] at hr
    exact ⟨r, hr, hnames⟩
  constructor
  · intro hown
    induction hown with
    | directly hnames =>
      by_contra hkey
      exact hfree _ (.directly (hold hkey hnames))
    | through _ hbears hnames ih =>
      -- The object between is new, so the identifier that is named was assigned by the store.
      by_contra hkey
      obtain ⟨r, hr, hkeyr⟩ := List.mem_map.mp ih
      obtain ⟨i, hi, rfl⟩ := List.mem_iff_getElem.mp hr
      obtain ⟨r', hr', huid⟩ := hbears
      rw [← hkeyr, hgained.added i hi, Option.some.injEq] at hr'
      rw [← hr'] at huid
      cases huid
      exact hfresh _ (Nat.le_add_right _ i) _ (hold hkey hnames)
  · intro hkey
    obtain ⟨r, hr, rfl⟩ := List.mem_map.mp hkey
    obtain ⟨i, hi, rfl⟩ := List.mem_iff_getElem.mp hr
    obtain ⟨o, ho, huid⟩ := howned _ hr
    exact .directly ⟨_, hgained.added i hi, o, ho, huid⟩

lemma collect_of_grownBy (h : s.GrownBy stamps made s')
    (howns : ∀ key, Store.Owns s'.objects uid key ↔ key ∈ made.map Resource.key) :
    (s'.collect uid).1.Perm (made.map Resource.key) ∧
      (s'.collect uid).2 = ⟨s.objects, s'.journal⟩ := by
  have hobjects : (s'.collect uid).2.objects = s.objects := by
    apply SortedMap.ext_get?
    intro key
    apply Option.ext
    intro r
    rw [Store.get?_collect_eq_some_iff, howns]
    constructor
    · rintro ⟨hr, hnot⟩
      rwa [h.gained.nothingElse key hnot] at hr
    · intro hr
      refine ⟨h.gained.kept key r hr, fun hmem => ?_⟩
      obtain ⟨r', hr', rfl⟩ := List.mem_map.mp hmem
      have hnone := (SortedMap.contains_eq_false_iff _ _).mp (h.isNew r' hr')
      rw [hr] at hnone
      cases hnone
  refine ⟨?_, hobjects ▸ rfl⟩
  rw [List.perm_ext_iff_of_nodup Store.nodup_collect h.nodup]
  intro key
  rw [Store.mem_collect_iff, howns]

/-- If the identifier of a workflow owns nothing in a store, and no object names an identifier that
the store will assign, then passes toward workflows of this identifier, whatever they want and
wherever they fail, are undone by the collection of what it owns: it takes the objects that they have
created, each once, and leaves the objects that were there before. -/
theorem collect_undoes_attempts (stamps : Nat → Stamp) (s : Store) (attempts : List Attempt)
    (uid : String) (hu : ∀ a ∈ attempts, a.desired.identity.uid = some uid)
    (hfree : ∀ key, ¬ Store.Owns s.objects uid key)
    (hfresh : ∀ n, s.journal.length ≤ n → ∀ key, ¬ Store.Names s.objects key (stamps n).uid) :
    let s' := s.afterAttempts stamps attempts
    ∃ entries, s'.journal = s.journal ++ entries ∧
      (s'.collect uid).1.Perm (entries.map JournalEntry.key) ∧
      (s'.collect uid).2 = ⟨s.objects, s'.journal⟩ := by
  intro s'
  obtain ⟨made, hgrown, howned⟩ := grownBy_afterAttempts stamps hu s
  obtain ⟨hkeys, hleft⟩ := collect_of_grownBy hgrown (owns_of_grownBy hgrown howned hfree hfresh)
  refine ⟨_, hgrown.gained.journal, ?_, hleft⟩
  rw [Store.keys_entriesFrom]
  exact hkeys

/-- A workflow that was renamed after a pass that broke off, in a store with an object of another
workflow. -/
theorem collect_undoes_renamed :
    let other := Workflow.stageless "evaluation" "lab" "2b7c"
    let s := Store.empty.put ⟨"9d4f", default⟩
      (other.headlessService.withOwner (other.ownerWith "2b7c"))
    let attempts : List Attempt :=
      [⟨.standard, .stageless "training" "lab" "1f0a",
          fun n => if n = 5 then some (.store "timed out") else none⟩,
        ⟨.standard, .stageless "retraining" "lab" "1f0a", fun _ => none⟩]
    let s' := s.afterAttempts Stamp.numbered attempts
    ∃ entries, s'.journal = s.journal ++ entries ∧
      (s'.collect "1f0a").1.Perm (entries.map JournalEntry.key) ∧
      (s'.collect "1f0a").2 = ⟨s.objects, s'.journal⟩ := by
  intro other s attempts
  have hother : ∀ {key uid}, Store.Names s.objects key uid → uid = "2b7c" := by
    rintro key uid ⟨r, hr, o, ho, rfl⟩
    by_cases hkey : key = (other.headlessService.withOwner (other.ownerWith "2b7c")).key
    · rw [hkey, Store.get?_put_self, Option.some.injEq] at hr
      rw [← hr] at ho
      rw [List.mem_singleton.mp ho]
      rfl
    · rw [Store.get?_put_of_ne _ _ hkey] at hr
      cases hr
  have hfree : ∀ key, ¬ Store.Owns s.objects "1f0a" key := by
    intro key hown
    induction hown with
    | directly h => exact absurd (hother h) (by decide)
    | through _ _ _ ih => exact ih
  exact collect_undoes_attempts .numbered s attempts "1f0a" (by decide) hfree
    fun n _ key h => uid_numbered_ne (by decide) n (hother h)

end Deleting

end WorkflowOperator
