import WorkflowOperator.Proofs.Converge.Settling

/-!
# Stores whose calls may fail

Any call of a pass may fail with an error, and then has no effect on the store. An attempt is a pass
that is run with such failures; attempts follow one another on the same store.
-/

namespace WorkflowOperator

/-- A backend whose calls may fail. Calls are counted; the call of a number for which there is an error
fails with it and has no effect. -/
def Backend.failing {σ : Type} (b : Backend σ) (faults : Nat → Option Error) :
    Backend (σ × Nat) where
  lookup key s :=
    match faults s.2 with
    | some e => (.error e, s.1, s.2 + 1)
    | none => ((b.lookup key s.1).1, (b.lookup key s.1).2, s.2 + 1)
  create r s :=
    match faults s.2 with
    | some e => (.error e, s.1, s.2 + 1)
    | none => ((b.create r s.1).1, (b.create r s.1).2, s.2 + 1)

/-- A pass toward a workflow, with the errors of its calls that fail. -/
structure Attempt where
  config : Config
  desired : Workflow
  faults : Nat → Option Error

/-- What comes of an attempt. The state afterwards has the number of its calls beside the store. -/
def Store.attempt (stamps : Nat → Stamp) (a : Attempt) (s : Store) :
    Ran (Store × Nat) (Outcome Report) :=
  (a.desired.converge a.config).run ((Store.backend stamps).failing a.faults) (s, 0)

/-- A store after attempts, one after the other. -/
def Store.afterAttempts (stamps : Nat → Stamp) (attempts : List Attempt) (s : Store) : Store :=
  attempts.foldl (fun s a => (s.attempt stamps a).state.1) s

/-- How a pass ends whose calls are counted from a number on: it succeeds and no call failed, or it
ends with the error of its last call, and no call before that failed. -/
inductive EndsWithFault (faults : Nat → Option Error) (n : Nat) : Outcome Report → Nat → Prop
  | succeeded (report : Report) {count : Nat} (hnone : ∀ i, n ≤ i → i < count → faults i = none) :
    EndsWithFault faults n (.ok report) count
  | failed {last : Nat} {e : Error} (hlast : n ≤ last) (he : faults last = some e)
    (hnone : ∀ i, n ≤ i → i < last → faults i = none) :
    EndsWithFault faults n (.error e) (last + 1)

lemma EndsWithFault.earlier {faults : Nat → Option Error} {n count : Nat} {result : Outcome Report}
    (hn : faults n = none) (h : EndsWithFault faults (n + 1) result count) :
    EndsWithFault faults n result count := by
  have hcons : ∀ {last}, (∀ i, n + 1 ≤ i → i < last → faults i = none) →
      ∀ i, n ≤ i → i < last → faults i = none := by
    intro last hnone i hi hlt
    rcases Nat.eq_or_lt_of_le hi with rfl | hi
    · exact hn
    · exact hnone i hi hlt
  cases h with
  | succeeded report hnone => exact .succeeded report (hcons hnone)
  | failed hlast he hnone => exact .failed (Nat.le_of_succ_le hlast) he (hcons hnone)

section Running
variable {σ α : Type} (b : Backend σ) {faults : Nat → Option Error} {n : Nat}

lemma run_lookup_failed {e : Error} (h : faults n = some e) (key : ObjectKey)
    (next : Outcome Resource → Pass α) (s : σ) :
    (Pass.lookup key next).run (b.failing faults) (s, n) =
      (next (.error e)).run (b.failing faults) (s, n + 1) := by
  simp [run_lookup, Backend.failing, h]

lemma run_lookup_answered (h : faults n = none) (key : ObjectKey)
    (next : Outcome Resource → Pass α) (s : σ) :
    (Pass.lookup key next).run (b.failing faults) (s, n) =
      (next (b.lookup key s).1).run (b.failing faults) ((b.lookup key s).2, n + 1) := by
  simp [run_lookup, Backend.failing, h]

lemma run_create_failed {e : Error} (h : faults n = some e) (r : Resource)
    (next : Outcome Resource → Pass α) (s : σ) :
    (Pass.create r next).run (b.failing faults) (s, n) =
      (next (.error e)).run (b.failing faults) (s, n + 1) := by
  simp [run_create, Backend.failing, h]

lemma run_create_answered (h : faults n = none) (r : Resource)
    (next : Outcome Resource → Pass α) (s : σ) :
    (Pass.create r next).run (b.failing faults) (s, n) =
      (next (b.create r s).1).run (b.failing faults) ((b.create r s).2, n + 1) := by
  simp [run_create, Backend.failing, h]

end Running

end WorkflowOperator
