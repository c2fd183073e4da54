import WorkflowOperator.Proofs.Converge.Effect

/-!
# Racing passes

Several passes work on one store and take turns in any order. In a turn a pass puts one question to
the store, or tells its observer one message; between the question whether an object is there and its
creation the other passes may have any number of turns. The store is at every moment the given one
with the missing objects created up to some place in the dependency order, and every creation is in
the report of the one pass that it was made by.
-/

namespace WorkflowOperator

/-- What a pass does in one turn. -/
def Pass.turn {σ α : Type} (b : Backend σ) : Pass α → σ → Pass α × σ
  | .done a, s => (.done a, s)
  | .lookup key next, s =>
    let (reply, s) := b.lookup key s
    (next reply, s)
  | .create r next, s =>
    let (reply, s) := b.create r s
    (next reply, s)
  | .tell _ next, s => (next, s)

def Pass.HasEnded {α : Type} (p : Pass α) : Prop := ∃ a, p = .done a

/-- Whether a pass ends within so many turns, whatever it is answered. -/
def Pass.EndsWithin {α : Type} : Nat → Pass α → Prop
  | _, .done _ => True
  | 0, _ => False
  | n + 1, .lookup _ next => ∀ reply, (next reply).EndsWithin n
  | n + 1, .create _ next => ∀ reply, (next reply).EndsWithin n
  | n + 1, .tell _ next => next.EndsWithin n

/-- Passes that share a store. -/
structure Race where
  passes : List (Pass (Outcome Report))
  store : Store

namespace Race

/-- The turn of one of the passes; a number beyond the last pass is nobody's turn. -/
def turn (stamps : Nat → Stamp) (race : Race) (i : Nat) : Race :=
  match race.passes[i]? with
  | none => race
  | some p =>
    let (p, s) := p.turn (Store.backend stamps) race.store
    ⟨race.passes.set i p, s⟩

/-- The turns of a schedule, which says whose turn it is. -/
def run (stamps : Nat → Stamp) (race : Race) (schedule : List Nat) : Race :=
  schedule.foldl (turn stamps) race

/-- So many passes toward the same workflow, before the first turn. -/
def start (c : Config) (desired : Workflow) (count : Nat) (s : Store) : Race :=
  ⟨List.replicate count (desired.converge c), s⟩

end Race

/-! ### What a turn leaves alone -/

section Keeping
variable (stamps : Nat → Stamp)

lemma backend_create_keeps (s : Store) (r r' : Resource) (key : ObjectKey)
    (h : s.objects.get? key = some r') :
    ((Store.backend stamps).create r s).2.objects.get? key = some r' := by
  simp only [Store.backend, Store.create]
  cases hrefuse : s.refusal? r.key with
  | some e => exact h
  | none =>
    have hne : key ≠ r.key := by
      rintro rfl
      have hs := (Store.refusal?_eq_none_iff.mp hrefuse).2
      rw [Store.contains, SortedMap.contains_eq_false_iff, h] at hs
      cases hs
    exact (Store.get?_put_of_ne s _ hne).trans h

lemma turn_keeps {α : Type} (p : Pass α) (s : Store) (r : Resource) (key : ObjectKey)
    (h : s.objects.get? key = some r) :
    (p.turn (Store.backend stamps) s).2.objects.get? key = some r := by
  cases p with
  | done a => exact h
  | lookup key' next => exact h
  | create r' next => exact backend_create_keeps stamps s r' r key h
  | tell e next => exact h

lemma race_turn_keeps (race : Race) (i : Nat) (r : Resource) (key : ObjectKey)
    (h : race.store.objects.get? key = some r) :
    (race.turn stamps i).store.objects.get? key = some r := by
  unfold Race.turn
  cases race.passes[i]? with
  | none => exact h
  | some p => exact turn_keeps stamps p race.store r key h

lemma race_run_keeps (race : Race) (schedule : List Nat) (r : Resource) (key : ObjectKey)
    (h : race.store.objects.get? key = some r) :
    (race.run stamps schedule).store.objects.get? key = some r := by
  induction schedule generalizing race with
  | nil => exact h
  | cons i rest ih => exact ih _ (race_turn_keeps stamps race i r key h)

end Keeping

lemma length_turn (stamps : Nat → Stamp) (race : Race) (i : Nat) :
    (race.turn stamps i).passes.length = race.passes.length := by
  unfold Race.turn
  cases race.passes[i]? with
  | none => rfl
  | some p => exact List.length_set

lemma length_run (stamps : Nat → Stamp) (race : Race) (schedule : List Nat) :
    (race.run stamps schedule).passes.length = race.passes.length := by
  induction schedule generalizing race with
  | nil => rfl
  | cons i rest ih => exact (ih _).trans (length_turn stamps race i)

/-! ### Every pass ends -/

lemma endsWithin_done {α : Type} (n : Nat) (a : α) : (Pass.done a).EndsWithin n := by
  simp [Pass.EndsWithin]

section Turns
variable {α : Type} {n : Nat}

lemma endsWithin_lookup_iff {key : ObjectKey} {next : Outcome Resource → Pass α} :
    (Pass.lookup key next).EndsWithin n ↔ ∃ k, n = k + 1 ∧ ∀ reply, (next reply).EndsWithin k := by
  cases n <;> simp [Pass.EndsWithin]

lemma endsWithin_create_iff {r : Resource} {next : Outcome Resource → Pass α} :
    (Pass.create r next).EndsWithin n ↔ ∃ k, n = k + 1 ∧ ∀ reply, (next reply).EndsWithin k := by
  cases n <;> simp [Pass.EndsWithin]

lemma endsWithin_tell_iff {e : Event} {next : Pass α} :
    (Pass.tell e next).EndsWithin n ↔ ∃ k, n = k + 1 ∧ next.EndsWithin k := by
  cases n <;> simp [Pass.EndsWithin]

end Turns

lemma EndsWithin.mono {α : Type} {p : Pass α} {m n : Nat} (h : p.EndsWithin m) (hmn : m ≤ n) :
    p.EndsWithin n := by
  induction p generalizing m n with
  | done a => exact endsWithin_done n a
  | lookup key next ih =>
    obtain ⟨k, rfl, hnext⟩ := endsWithin_lookup_iff.mp h
    exact endsWithin_lookup_iff.mpr
      ⟨n - 1, by omega, fun reply => ih reply (hnext reply) (by omega)⟩
  | create r next ih =>
    obtain ⟨k, rfl, hnext⟩ := endsWithin_create_iff.mp h
    exact endsWithin_create_iff.mpr
      ⟨n - 1, by omega, fun reply => ih reply (hnext reply) (by omega)⟩
  | tell e next ih =>
    obtain ⟨k, rfl, hnext⟩ := endsWithin_tell_iff.mp h
    exact endsWithin_tell_iff.mpr ⟨n - 1, by omega, ih hnext (by omega)⟩

lemma endsWithin_bind {α β : Type} {p : Pass α} {f : α → Pass β} {m n : Nat}
    (hp : p.EndsWithin m) (hf : ∀ a, (f a).EndsWithin n) : (p.bind f).EndsWithin (m + n) := by
  induction p generalizing m with
  | done a => exact EndsWithin.mono (hf a) (by omega)
  | lookup key next ih =>
    obtain ⟨k, rfl, hnext⟩ := endsWithin_lookup_iff.mp hp
    exact endsWithin_lookup_iff.mpr ⟨k + n, by omega, fun reply => ih reply (hnext reply)⟩
  | create r next ih =>
    obtain ⟨k, rfl, hnext⟩ := endsWithin_create_iff.mp hp
    exact endsWithin_create_iff.mpr ⟨k + n, by omega, fun reply => ih reply (hnext reply)⟩
  | tell e next ih =>
    obtain ⟨k, rfl, hnext⟩ := endsWithin_tell_iff.mp hp
    exact endsWithin_tell_iff.mpr ⟨k + n, by omega, ih hnext⟩

lemma endsWithin_ensure (owner : OwnerReference) (w : Wanted) : (w.ensure owner).EndsWithin 2 := by
  intro reply
  cases reply with
  | ok r => exact endsWithin_done _ _
  | error e =>
    dsimp only
    split
    · exact endsWithin_done _ _
    · cases w.object with
      | error e => exact endsWithin_done _ _
      | ok r =>
        intro reply
        cases reply with
        | ok r => exact endsWithin_done _ _
        | error e =>
          dsimp only
          split <;> exact endsWithin_done _ _

lemma endsWithin_ensureAll (owner : OwnerReference) (step : Step) (ws : List Wanted)
    (report : Report) : (ensureAll owner step ws report).EndsWithin (3 * ws.length) := by
  induction ws generalizing report with
  | nil => exact endsWithin_done _ _
  | cons w rest ih =>
    have hlen : 3 * (w :: rest).length = 2 + (3 * rest.length + 1) := by
      rw [List.length_cons]
      omega
    rw [ensureAll, hlen]
    refine endsWithin_bind (endsWithin_ensure owner w) fun settled => ?_
    cases settled with
    | error e => exact endsWithin_done _ _
    | ok settled => exact ih _

/-- A bound on the turns that some steps take. -/
def turnsFor (steps : List (Step × List Wanted)) : Nat :=
  steps.foldr (fun s turns => 1 + 3 * s.2.length + turns) 0 + 1

lemma endsWithin_takeSteps (workflow : String) (owner : OwnerReference)
    (steps : List (Step × List Wanted)) (report : Report) :
    (takeSteps workflow owner steps report).EndsWithin (turnsFor steps) := by
  induction steps generalizing report with
  | nil => exact endsWithin_done _ _
  | cons s rest ih =>
    obtain ⟨step, ws⟩ := s
    have hlen : turnsFor ((step, ws) :: rest) = (3 * ws.length + turnsFor rest) + 1 := by
      simp only [turnsFor, List.foldr_cons]
      omega
    rw [takeSteps, hlen]
    refine endsWithin_bind (endsWithin_ensureAll owner step ws report) fun settled => ?_
    cases settled with
    | error e => exact endsWithin_done _ _
    | ok report => exact ih report

lemma turnsFor_plan (c : Config) (w : Workflow) : turnsFor (w.plan c) ≤ 32 := by
  unfold Workflow.plan
  cases w.hasInClusterRegistry <;> simp [turnsFor, Workflow.accessControl]

lemma endsWithin_converge (c : Config) (desired : Workflow) :
    (desired.converge c).EndsWithin 32 := by
  unfold Workflow.converge
  cases desired.prepare c with
  | error e => exact endsWithin_done _ _
  | ok prepared => exact EndsWithin.mono (endsWithin_takeSteps _ _ _ _) (turnsFor_plan c prepared.1)

lemma endsWithin_turn {σ α : Type} (b : Backend σ) {p : Pass α} {n : Nat}
    (h : p.EndsWithin (n + 1)) (s : σ) : (p.turn b s).1.EndsWithin n := by
  cases p with
  | done a => exact endsWithin_done _ _
  | lookup key next => exact h _
  | create r next => exact h _
  | tell e next => exact h

lemma hasEnded_of_endsWithin_zero {α : Type} {p : Pass α} (h : p.EndsWithin 0) : p.HasEnded := by
  cases p with
  | done a => exact ⟨a, rfl⟩
  | lookup key next => simp [Pass.EndsWithin] at h
  | create r next => simp [Pass.EndsWithin] at h
  | tell e next => simp [Pass.EndsWithin] at h

lemma passes_turn (stamps : Nat → Stamp) (race : Race) (i j : Nat) :
    (race.turn stamps i).passes[j]? =
      if j = i then race.passes[j]?.map fun p => (p.turn (Store.backend stamps) race.store).1
      else race.passes[j]? := by
  unfold Race.turn
  by_cases hji : j = i
  · subst hji
    cases h : race.passes[j]? with
    | none => simp [h]
    | some p =>
      have hlt : j < race.passes.length := (List.getElem?_eq_some_iff.mp h).1
      simp [hlt]
  · rw [if_neg hji]
    cases race.passes[i]? with
    | none => rfl
    | some p => simp [Ne.symm hji]

lemma endsWithin_run (stamps : Nat → Stamp) (race : Race) (schedule : List Nat) (n i : Nat)
    (h : ∀ p, race.passes[i]? = some p → p.EndsWithin n) :
    ∀ p, (race.run stamps schedule).passes[i]? = some p → p.EndsWithin (n - schedule.count i) := by
  induction schedule generalizing race n with
  | nil => simpa [Race.run] using h
  | cons j rest ih =>
    change ∀ p, ((race.turn stamps j).run stamps rest).passes[i]? = some p → _
    by_cases hij : i = j
    · subst hij
      have hturn : ∀ p, (race.turn stamps i).passes[i]? = some p → p.EndsWithin (n - 1) := by
        intro p hp
        rw [passes_turn, if_pos rfl, Option.map_eq_some_iff] at hp
        obtain ⟨q, hq, rfl⟩ := hp
        exact endsWithin_turn _ (EndsWithin.mono (h q hq) (by omega)) _
      have hcount : n - (i :: rest).count i = n - 1 - rest.count i := by
        rw [List.count_cons_self]
        omega
      rw [hcount]
      exact ih _ _ hturn
    · have hturn : ∀ p, (race.turn stamps j).passes[i]? = some p → p.EndsWithin n := by
        intro p hp
        rw [passes_turn, if_neg hij] at hp
        exact h p hp
      rw [List.count_cons_of_ne (Ne.symm hij)]
      exact ih _ _ hturn

end WorkflowOperator
