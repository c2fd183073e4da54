import WorkflowOperator.Converge.Pass
import WorkflowOperator.Store.Basic

/-!
# Running a pass

A pass is run against anything that answers its questions.  A store is one such thing, given the stamps
that it puts on the objects it creates.
-/

namespace WorkflowOperator

/-- Something with a state that answers the questions of a pass. -/
structure Backend (σ : Type) where
  lookup : ObjectKey → σ → Outcome Resource × σ
  create : Resource → σ → Outcome Resource × σ

/-- What came of a pass: its result, what an observer was told, and the state afterwards. -/
structure Ran (σ α : Type) where
  result : α
  events : List Event
  state : σ

/-- Runs a pass to its end. -/
def Pass.run {σ α : Type} (b : Backend σ) : Pass α → σ → Ran σ α
  | .done a, s => ⟨a, [], s⟩
  | .lookup key next, s =>
    let (reply, s) := b.lookup key s
    (next reply).run b s
  | .create r next, s =>
    let (reply, s) := b.create r s
    (next reply).run b s
  | .tell e next, s =>
    let ran := next.run b s
    { ran with events := e :: ran.events }

/-- A store as it answers a pass.  The creation number `n`, counted from zero over all of the store's
life, gets the stamp number `n`. -/
def Store.backend (stamps : Nat → Stamp) : Backend Store where
  lookup key s := (s.lookup key, s)
  create r s :=
    match s.create (stamps s.journal.length) r with
    | .ok (r, s) => (.ok r, s)
    | .error e => (.error e, s)

/-- One pass of convergence on a store. -/
def Store.converge (stamps : Nat → Stamp) (c : Config) (desired : Workflow) (s : Store) :
    Ran Store (Outcome Report) :=
  (desired.converge c).run (Store.backend stamps) s

end WorkflowOperator
