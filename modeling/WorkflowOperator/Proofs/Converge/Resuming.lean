import WorkflowOperator.Proofs.Converge.Failing
import WorkflowOperator.Proofs.Converge.Front

/-!
# Resuming after failures

A pass that fails leaves the store filled up to some front of its wanted objects. The next pass finds
these there and goes on behind them, so that passes which fail, however often and wherever, and one
that does not, do together what a single pass does.
-/

namespace WorkflowOperator

section Filling
variable {stamps : Nat → Stamp} {owner : OwnerReference} {rest : List Wanted} {w : Wanted}
  {s s' : Store}

lemma Store.FilledFrom.cons_present (hs : s.contains w.key = true)
    (h : s.FilledFrom stamps owner rest s') : s.FilledFrom stamps owner (w :: rest) s' := by
  obtain ⟨front, hfront, rfl⟩ := h
  refine ⟨w :: front, List.cons_prefix_cons.mpr ⟨rfl, hfront⟩, ?_⟩
  simp [Store.lacking, hs]

lemma Store.FilledFrom.cons_created (hs : s.contains w.key = false) {r : Resource}
    (hr : w.object = .ok r) (hnew : w.key ∉ rest.map Wanted.key)
    (h : (s.put (stamps s.journal.length) (r.withOwner owner)).FilledFrom stamps owner rest s') :
    s.FilledFrom stamps owner (w :: rest) s' := by
  obtain ⟨front, hfront, rfl⟩ := h
  have hnew' : (r.withOwner owner).key ∉ front.map Wanted.key := by
    rw [Resource.key_withOwner, w.key_eq r hr]
    exact fun hmem => hnew ((hfront.map Wanted.key).subset hmem)
  have hcons : s.lacking (w :: front) = w :: s.lacking front := by simp [Store.lacking, hs]
  refine ⟨w :: front, List.cons_prefix_cons.mpr ⟨rfl, hfront⟩, ?_⟩
  rw [lacking_put s _ hnew', hcons, ← List.singleton_append, madeFor_append, madeFor_singleton hr,
    Store.putAll_append]
  rfl

end Filling

/-! ### One attempt -/

section Attempting
variable (stamps : Nat → Stamp) (owner : OwnerReference) {faults : Nat → Option Error}
  (hfaults : ∀ i e, faults i = some e → e.isNotFound = false ∧ e.isAlreadyExists = false)
include hfaults

lemma ensure_failing {w : Wanted} (hkey : w.key.IsStorable) {r : Resource} (hr : w.object = .ok r)
    (s : Store) (n : Nat) :
    let ran := (w.ensure owner).run ((Store.backend stamps).failing faults) (s, n)
    (∃ last e, n ≤ last ∧ faults last = some e ∧ (∀ i, n ≤ i → i < last → faults i = none) ∧
      ran.result = .error e ∧ ran.state = (s, last + 1)) ∨
    (faults n = none ∧ s.contains w.key = true ∧
      ran.result = .ok (.present false) ∧ ran.state = (s, n + 1)) ∨
    (faults n = none ∧ faults (n + 1) = none ∧ s.contains w.key = false ∧ ran.result = .ok .created ∧
      ran.state = (s.put (stamps s.journal.length) (r.withOwner owner), n + 2)) := by
  intro ran
  have hran : ran = (w.ensure owner).run ((Store.backend stamps).failing faults) (s, n) := rfl
  rw [Wanted.ensure] at hran
  cases hlookup : faults n with
  | some e =>
    rw [run_lookup_failed _ hlookup] at hran
    simp only [(hfaults n e hlookup).1, Bool.not_false, if_true, Pass.run] at hran
    exact Or.inl ⟨n, e, le_rfl, hlookup, fun i hi hlt => by omega, by rw [hran], by rw [hran]⟩
  | none =>
    rw [run_lookup_answered _ hlookup] at hran
    by_cases hs : s.contains w.key = true
    · obtain ⟨r', hr'⟩ := Store.lookup_of_contains hs
      simp only [Store.backend, hr', Pass.run] at hran
      exact Or.inr (Or.inl ⟨rfl, hs, by rw [hran], by rw [hran]⟩)
    · rw [Bool.not_eq_true] at hs
      have hmiss : (Store.backend stamps).lookup w.key s =
          (.error (.notFound w.key.kind w.key.name), s) := by
        simp [Store.backend, Store.lookup_of_not_contains hs]
      simp only [hmiss, Error.isNotFound, Bool.not_true, Bool.false_eq_true, if_false, hr] at hran
      cases hcreate : faults (n + 1) with
      | some e =>
        rw [run_create_failed _ hcreate] at hran
        simp only [(hfaults _ e hcreate).2, Bool.false_eq_true, if_false, Pass.run] at hran
        -- Only the lookup came before, and it was answered.
        refine Or.inl ⟨n + 1, e, Nat.le_succ n, hcreate, fun i hi hlt => ?_, by rw [hran],
          by rw [hran]⟩
        obtain rfl : i = n := by omega
        exact hlookup
      | none =>
        have hput := backend_create (r := r.withOwner owner) stamps
          (by rwa [Resource.key_withOwner, w.key_eq r hr])
          (by rwa [Resource.key_withOwner, w.key_eq r hr])
        rw [run_create_answered _ hcreate, hput] at hran
        simp only [Pass.run] at hran
        exact Or.inr (Or.inr ⟨rfl, rfl, hs, by rw [hran], by rw [hran]⟩)

/-- Wherever settling fails, the store has been filled up to some front, and the error is that of the
call that failed. -/
lemma settle_failing {ws : List Wanted} (hnodup : (ws.map Wanted.key).Nodup)
    (hstorable : ∀ v ∈ ws, v.key.IsStorable) (hmake : ∀ v ∈ ws, ∃ r, v.object = .ok r) (s : Store)
    (report : Report) (n : Nat) :
    let ran := (settle owner ws report).run ((Store.backend stamps).failing faults) (s, n)
    s.FilledFrom stamps owner ws ran.state.1 ∧ EndsWithFault faults n ran.result ran.state.2 := by
  induction ws generalizing s report n with
  | nil => exact ⟨.refl s, .succeeded report fun i hi hlt => absurd hi (Nat.not_le.mpr hlt)⟩
  | cons w rest ih =>
    have hkeys := List.nodup_cons.mp (List.map_cons ▸ hnodup)
    have hrest := ih hkeys.2 (fun v hv => hstorable v (List.mem_cons_of_mem _ hv))
      fun v hv => hmake v (List.mem_cons_of_mem _ hv)
    obtain ⟨r, hr⟩ := hmake w List.mem_cons_self
    simp only [settle, run_bind]
    rcases ensure_failing stamps owner hfaults (hstorable w List.mem_cons_self) hr s n with
      ⟨last, e, hlast, he, hbefore, hresult, hstate⟩ | ⟨hn, hs, hresult, hstate⟩ |
      ⟨hn, hn', hs, hresult, hstate⟩
    · rw [hresult, hstate]
      exact ⟨.refl s, .failed hlast he hbefore⟩
    · rw [hresult, hstate]
      obtain ⟨hfilled, hends⟩ := hrest s (report.add w.key (.present false)) (n + 1)
      exact ⟨hfilled.cons_present hs, hends.earlier hn⟩
    · rw [hresult, hstate]
      obtain ⟨hfilled, hends⟩ := hrest (s.put (stamps s.journal.length) (r.withOwner owner))
        (report.add w.key .created) (n + 2)
      exact ⟨hfilled.cons_created hs hr hkeys.1, (hends.earlier hn').earlier hn⟩

end Attempting

/-! ### Attempts toward one workflow -/

section Converging
variable (stamps : Nat → Stamp) {c : Config} {desired w : Workflow} {uid : String}
  {files : TextMap String}

/-- Attempts toward a workflow, with the messages of the store for the calls that fail in each. -/
def attemptsWith (c : Config) (desired : Workflow) (failures : List (Nat → Option String)) :
    List Attempt :=
  failures.map fun messages => ⟨c, desired, fun n => (messages n).map .store⟩

lemma faults_of_mem_attemptsWith {failures : List (Nat → Option String)} {a : Attempt}
    (ha : a ∈ attemptsWith c desired failures) : ∀ i e, a.faults i = some e →
      e.isNotFound = false ∧ e.isAlreadyExists = false := by
  obtain ⟨messages, -, rfl⟩ := List.mem_map.mp ha
  intro i e he
  obtain ⟨message, -, rfl⟩ := Option.map_eq_some_iff.mp he
  exact ⟨rfl, rfl⟩

variable (h : desired.validate c = .ok w) (hu : w.identity.uid = some uid)
  (hfiles : w.managerFiles c = .ok files)
include h hu hfiles

lemma attempt_failing {failures : List (Nat → Option String)} {a : Attempt}
    (ha : a ∈ attemptsWith c desired failures) (s : Store) :
    let ran := s.attempt stamps a
    s.FilledFrom stamps (w.ownerWith uid) (w.wanted c) ran.state.1 ∧
      EndsWithFault a.faults 0 ran.result ran.state.2 := by
  have hfaults := faults_of_mem_attemptsWith ha
  obtain ⟨messages, -, rfl⟩ := List.mem_map.mp ha
  have hfate := settle_failing stamps (w.ownerWith uid) hfaults (nodup_wanted c w)
    (storable_wanted h) (makeable_wanted hfiles) s w.blankReport 0
  rwa [← silent_converge h hu, run_silent] at hfate

/-- However attempts fail, they leave the store filled up to some front. -/
lemma filledFrom_afterAttempts (attempts : List Attempt)
    {failures : List (Nat → Option String)} (ha : attempts ⊆ attemptsWith c desired failures)
    (s : Store) :
    s.FilledFrom stamps (w.ownerWith uid) (w.wanted c) (s.afterAttempts stamps attempts) := by
  induction attempts generalizing s with
  | nil => exact .refl s
  | cons a rest ih =>
    have hfirst := (attempt_failing stamps h hu hfiles (ha List.mem_cons_self) s).1
    exact hfirst.trans (nodup_wanted c w) (makeable_wanted hfiles)
      (ih (fun b hb => ha (List.mem_cons_of_mem a hb)) _)

/-- Passes toward a workflow whose calls may fail, any of them and in any pass, and then a pass without
failures: each of the former succeeds or ends with the error of its call that failed, the last
succeeds, and together they do exactly what one pass without failures does. Every missing object has
been created once, in dependency order. -/
theorem resumed_passes_converge (s : Store) (failures : List (Nat → Option String)) :
    let attempts := attemptsWith c desired failures
    let last := (s.afterAttempts stamps attempts).converge stamps c desired
    let made := s.newFor (w.ownerWith uid) (w.objectsWith c files)
    (∀ before a after, attempts = before ++ a :: after →
      let ran := (s.afterAttempts stamps before).attempt stamps a
      EndsWithFault a.faults 0 ran.result ran.state.2) ∧
    (∃ report, last.result = .ok report) ∧
    (∃ entries, last.state.journal = s.journal ++ entries ∧
      entries.map JournalEntry.key = w.dependencyOrder.filter fun key => !s.contains key) ∧
    Store.Gained stamps s last.state made ∧
    last.state = (s.converge stamps c desired).state ∧
    ∀ stamps', last.state.AgreesUpToStamps (s.converge stamps' c desired).state := by
  intro attempts last made
  have hmake := makeable_wanted (w := w) hfiles
  have hfilled := filledFrom_afterAttempts stamps h hu hfiles attempts
    (List.Subset.refl attempts) s
  obtain ⟨hresult, hlast⟩ := converge_creates stamps h hu (s := s.afterAttempts stamps attempts)
    fun _ => hfiles
  have hstate : last.state = s.putAll stamps made := by
    rw [← madeFor_lacking (realizes_wanted fun _ => hfiles),
      hfilled.complete (nodup_wanted c w) hmake,
      madeFor_lacking (realizes_wanted fun _ => hfiles)] at hlast
    exact hlast
  have hgained : Store.Gained stamps s last.state made :=
    hstate ▸ gained_newFor_objectsWith s _ c w files stamps
  refine ⟨?_, ⟨_, hresult⟩, ⟨_, hgained.journal, ?_⟩, hgained,
    agrees_with_pass stamps h hu hfiles hstate⟩
  · intro before a after hsplit
    have ha : a ∈ attempts := by simp [hsplit]
    exact (attempt_failing stamps h hu hfiles ha _).2
  · rw [Store.keys_entriesFrom]
    exact keys_newFor_objectsWith s _ c w files

end Converging

/-- Two passes that a store breaks off, and one that it does not. -/
theorem broken_off_passes_converge :
    let desired := Workflow.stageless "training" "lab" "1f0a"
    let attempts := attemptsWith .standard desired
      [fun n => if n = 3 then some "connection refused" else none,
        fun n => if n = 7 then some "timed out" else none]
    let last := (Store.empty.afterAttempts Stamp.numbered attempts).converge Stamp.numbered
      .standard desired
    (∃ report, last.result = .ok report) ∧
      last.state = (Store.empty.converge Stamp.numbered .standard desired).state := by
  obtain ⟨files, hfiles⟩ := files_lab
  obtain ⟨-, hresult, -, -, hstate, -⟩ := resumed_passes_converge Stamp.numbered validate_lab rfl
    hfiles .empty [fun n => if n = 3 then some "connection refused" else none,
      fun n => if n = 7 then some "timed out" else none]
  exact ⟨hresult, hstate⟩

end WorkflowOperator
