import WorkflowOperator.Converge.Run
import WorkflowOperator.Proofs.Store.Answers

/-!
# Passes without their messages

Messages to an observer do not bear on what a pass asks a store. Without them, and without the
division into steps, a pass settles its wanted objects one after the other. A store answers such a
pass by growing by the objects that it lacks, in the order in which they are wanted.
-/

namespace WorkflowOperator

/-- The questions of a pass, without its messages. -/
def Pass.silent {α : Type} : Pass α → Pass α
  | .done a => .done a
  | .lookup key next => .lookup key fun reply => (next reply).silent
  | .create r next => .create r fun reply => (next reply).silent
  | .tell _ next => next.silent

/-- Sees to it that wanted objects are there, one after the other, up to the first failure. -/
def settle (owner : OwnerReference) : List Wanted → Report → Pass (Outcome Report)
  | [], report => .done (.ok report)
  | w :: rest, report => (w.ensure owner).bind fun
    | .error e => .done (.error e)
    | .ok settled => settle owner rest (report.add w.key settled)

def allWanted (steps : List (Step × List Wanted)) : List Wanted := steps.flatMap Prod.snd

lemma silent_bind {α β : Type} (p : Pass α) (f : α → Pass β) :
    (p.bind f).silent = p.silent.bind fun a => (f a).silent := by
  induction p with
  | done a => rfl
  | lookup key next ih =>
    simp only [Pass.bind, Pass.silent, Pass.lookup.injEq, true_and]
    funext reply
    exact ih reply
  | create r next ih =>
    simp only [Pass.bind, Pass.silent, Pass.create.injEq, true_and]
    funext reply
    exact ih reply
  | tell e next ih => exact ih

lemma bind_assoc {α β γ : Type} (p : Pass α) (f : α → Pass β) (g : β → Pass γ) :
    (p.bind f).bind g = p.bind fun a => (f a).bind g := by
  induction p with
  | done a => rfl
  | lookup key next ih =>
    simp only [Pass.bind, Pass.lookup.injEq, true_and]
    funext reply
    exact ih reply
  | create r next ih =>
    simp only [Pass.bind, Pass.create.injEq, true_and]
    funext reply
    exact ih reply
  | tell e next ih => simp only [Pass.bind, ih]

lemma silent_ensure (owner : OwnerReference) (w : Wanted) :
    (w.ensure owner).silent = w.ensure owner := by
  unfold Wanted.ensure
  simp only [Pass.silent, Pass.lookup.injEq, true_and]
  funext reply
  cases reply with
  | ok r => rfl
  | error e =>
    dsimp only
    split
    · rfl
    · cases w.object with
      | error e => rfl
      | ok r =>
        simp only [Pass.silent, Pass.create.injEq, true_and]
        funext reply
        cases reply with
        | ok r => rfl
        | error e =>
          dsimp only
          split <;> rfl

lemma silent_ensureAll (owner : OwnerReference) (step : Step) (ws : List Wanted) (report : Report) :
    (ensureAll owner step ws report).silent = settle owner ws report := by
  induction ws generalizing report with
  | nil => rfl
  | cons w rest ih =>
    rw [ensureAll, settle, silent_bind, silent_ensure]
    congr 1
    funext settled
    cases settled with
    | error e => rfl
    | ok settled => exact ih _

/-- What is left of a pass that is about to create an object. -/
def creating (owner : OwnerReference) (w : Wanted) (rest : List Wanted) (report : Report)
    (r : Resource) : Pass (Outcome Report) :=
  .create (r.withOwner owner) fun
    | .ok _ => settle owner rest (report.add w.key .created)
    | .error e =>
      if e.isAlreadyExists then settle owner rest (report.add w.key (.present true))
      else .done (.error e)

lemma settle_cons (owner : OwnerReference) (w : Wanted) (rest : List Wanted) (report : Report) :
    settle owner (w :: rest) report = .lookup w.key fun
      | .ok _ => settle owner rest (report.add w.key (.present false))
      | .error e =>
        if !e.isNotFound then .done (.error e)
        else
          match w.object with
          | .error e => .done (.error e)
          | .ok r => creating owner w rest report r := by
  simp only [settle, Wanted.ensure, Pass.bind, Pass.lookup.injEq, true_and]
  funext reply
  cases reply with
  | ok r => rfl
  | error e =>
    dsimp only
    split
    · rfl
    · cases w.object with
      | error e => rfl
      | ok r =>
        simp only [Pass.bind, creating, Pass.create.injEq, true_and]
        funext reply
        cases reply with
        | ok r => rfl
        | error e =>
          dsimp only
          split <;> rfl

lemma settle_append (owner : OwnerReference) (ws vs : List Wanted) (report : Report) :
    settle owner (ws ++ vs) report = (settle owner ws report).bind fun
      | .error e => .done (.error e)
      | .ok report => settle owner vs report := by
  induction ws generalizing report with
  | nil => rfl
  | cons w rest ih =>
    rw [List.cons_append, settle, settle, bind_assoc]
    congr 1
    funext settled
    cases settled with
    | error e => rfl
    | ok settled => exact ih _

lemma silent_takeSteps (workflow : String) (owner : OwnerReference)
    (steps : List (Step × List Wanted)) (report : Report) :
    (takeSteps workflow owner steps report).silent = settle owner (allWanted steps) report := by
  induction steps generalizing report with
  | nil => rfl
  | cons s rest ih =>
    obtain ⟨step, ws⟩ := s
    rw [takeSteps, Pass.silent, silent_bind, silent_ensureAll]
    change _ = settle owner (ws ++ allWanted rest) report
    rw [settle_append]
    congr 1
    funext settled
    cases settled with
    | error e => rfl
    | ok report => exact ih report

lemma run_lookup {σ α : Type} (b : Backend σ) (key : ObjectKey)
    (next : Outcome Resource → Pass α) (s : σ) :
    (Pass.lookup key next).run b s = (next (b.lookup key s).1).run b (b.lookup key s).2 := rfl

lemma run_create {σ α : Type} (b : Backend σ) (r : Resource) (next : Outcome Resource → Pass α)
    (s : σ) : (Pass.create r next).run b s = (next (b.create r s).1).run b (b.create r s).2 := rfl

lemma run_silent {σ α : Type} (b : Backend σ) (p : Pass α) (s : σ) :
    p.silent.run b s = ⟨(p.run b s).result, [], (p.run b s).state⟩ := by
  induction p generalizing s with
  | done a => rfl
  | lookup key next ih => exact ih _ _
  | create r next ih => exact ih _ _
  | tell e next ih => exact ih s

lemma run_bind {σ α β : Type} (b : Backend σ) (p : Pass α) (f : α → Pass β) (s : σ) :
    (p.bind f).run b s =
      let first := p.run b s
      let second := (f first.result).run b first.state
      ⟨second.result, first.events ++ second.events, second.state⟩ := by
  induction p generalizing s with
  | done a => rfl
  | lookup key next ih => exact ih _ _
  | create r next ih => exact ih _ _
  | tell e next ih =>
    simp only [Pass.bind, Pass.run, ih]
    rfl

/-! ### Settling wanted objects in a store -/

def Store.lacking (s : Store) (ws : List Wanted) : List Wanted :=
  ws.filter fun w => !s.contains w.key

def Store.having (s : Store) (ws : List Wanted) : List Wanted :=
  ws.filter fun w => s.contains w.key

def madeFor (owner : OwnerReference) (ws : List Wanted) : List Resource :=
  ws.filterMap fun w => w.object.toOption.map (Resource.withOwner owner)

/-- Wanted objects that a store can take or has: their keys differ and are fit for a store, and every
one that the store lacks can be made. -/
structure Store.CanSettle (s : Store) (ws : List Wanted) : Prop where
  nodup : (ws.map Wanted.key).Nodup
  storable : ∀ w ∈ ws, w.key.IsStorable
  makeable : ∀ w ∈ ws, s.contains w.key = false → ∃ r, w.object = .ok r

def Report.addAll (report : Report) (created present : List Wanted) : Report :=
  { report with
    created := report.created ++ created.map Wanted.key
    present := report.present ++ present.map Wanted.key }

variable (stamps : Nat → Stamp) (owner : OwnerReference)

lemma backend_create {s : Store} {r : Resource} (h : s.contains r.key = false)
    (hkey : r.key.IsStorable) :
    (Store.backend stamps).create r s =
      (.ok (r.stamped (stamps s.journal.length)), s.put (stamps s.journal.length) r) := by
  simp [Store.backend, Store.create, Store.refusal?_eq_none_iff.mpr ⟨hkey, h⟩]

lemma run_ensure_present {s : Store} {w : Wanted} (h : s.contains w.key = true) :
    (w.ensure owner).run (Store.backend stamps) s = ⟨.ok (.present false), [], s⟩ := by
  obtain ⟨r, hr⟩ := Store.lookup_of_contains h
  simp [Wanted.ensure, Pass.run, Store.backend, hr]

lemma run_ensure_unmakeable {s : Store} {w : Wanted} {e : Error} (h : s.contains w.key = false)
    (hw : w.object = .error e) :
    (w.ensure owner).run (Store.backend stamps) s = ⟨.error e, [], s⟩ := by
  simp [Wanted.ensure, Pass.run, Store.backend, Store.lookup_of_not_contains h, Error.isNotFound, hw]

lemma run_ensure_created {s : Store} {w : Wanted} {r : Resource} (h : s.contains w.key = false)
    (hw : w.object = .ok r) (hkey : w.key.IsStorable) :
    (w.ensure owner).run (Store.backend stamps) s =
      ⟨.ok .created, [], s.put (stamps s.journal.length) (r.withOwner owner)⟩ := by
  have hcreate : (Store.backend stamps).create (r.withOwner owner) s =
      (.ok ((r.withOwner owner).stamped (stamps s.journal.length)),
        s.put (stamps s.journal.length) (r.withOwner owner)) := by
    rw [← w.key_eq r hw] at h hkey
    exact backend_create stamps h hkey
  have hlookup : (Store.backend stamps).lookup w.key s =
      (.error (.notFound w.key.kind w.key.name), s) := by
    simp [Store.backend, Store.lookup_of_not_contains h]
  simp [Wanted.ensure, Pass.run, hlookup, Error.isNotFound, hw, hcreate]

lemma contains_put_of_ne (s : Store) (stamp : Stamp) {r : Resource} {key : ObjectKey}
    (h : key ≠ r.key) : (s.put stamp r).contains key = s.contains key := by
  rw [Bool.eq_iff_iff, Store.contains_put]
  simp [h]

lemma lacking_put (s : Store) (stamp : Stamp) {r : Resource} {ws : List Wanted}
    (h : r.key ∉ ws.map Wanted.key) : (s.put stamp r).lacking ws = s.lacking ws := by
  refine List.filter_congr fun w hw => ?_
  rw [contains_put_of_ne s stamp fun hkey => h (hkey ▸ List.mem_map_of_mem hw)]

lemma having_put (s : Store) (stamp : Stamp) {r : Resource} {ws : List Wanted}
    (h : r.key ∉ ws.map Wanted.key) : (s.put stamp r).having ws = s.having ws := by
  refine List.filter_congr fun w hw => ?_
  rw [contains_put_of_ne s stamp fun hkey => h (hkey ▸ List.mem_map_of_mem hw)]

/-- A store settles what it can settle: what it lacks is created in order and reported as created,
and the rest is reported as present. -/
lemma run_settle {s : Store} {ws : List Wanted} (h : s.CanSettle ws) (report : Report) :
    (settle owner ws report).run (Store.backend stamps) s =
      ⟨.ok (report.addAll (s.lacking ws) (s.having ws)), [],
        s.putAll stamps (madeFor owner (s.lacking ws))⟩ := by
  induction ws generalizing s report with
  | nil =>
    simp [settle, Pass.run, Store.lacking, Store.having, madeFor, Store.putAll, Report.addAll]
  | cons w rest ih =>
    have hnodup := List.nodup_cons.mp (List.map_cons ▸ h.nodup)
    have hstorable : ∀ v ∈ rest, v.key.IsStorable :=
      fun v hv => h.storable v (List.mem_cons_of_mem _ hv)
    rw [settle, run_bind]
    by_cases hs : s.contains w.key = true
    · have hrest : s.CanSettle rest :=
        ⟨hnodup.2, hstorable, fun v hv => h.makeable v (List.mem_cons_of_mem _ hv)⟩
      simp only [run_ensure_present stamps owner hs, ih hrest]
      simp [Store.lacking, Store.having, hs, Report.addAll, Report.add]
    · rw [Bool.not_eq_true] at hs
      obtain ⟨r, hr⟩ := h.makeable w List.mem_cons_self hs
      have hnew : (r.withOwner owner).key ∉ rest.map Wanted.key := by
        rw [Resource.key_withOwner, w.key_eq r hr]
        exact hnodup.1
      have hrest : (s.put (stamps s.journal.length) (r.withOwner owner)).CanSettle rest := by
        refine ⟨hnodup.2, hstorable, fun v hv hmiss => ?_⟩
        rw [contains_put_of_ne s _ fun hkey => hnew (hkey ▸ List.mem_map_of_mem hv)] at hmiss
        exact h.makeable v (List.mem_cons_of_mem _ hv) hmiss
      have hcreated := run_ensure_created stamps owner hs hr (h.storable w List.mem_cons_self)
      simp only [hcreated, ih hrest, lacking_put s _ hnew, having_put s _ hnew]
      simp [Store.lacking, Store.having, hs, hr, madeFor, Except.toOption, Store.putAll,
        Report.addAll, Report.add]

/-- A store stops settling at the first object that it lacks and that cannot be made. -/
lemma run_settle_unmakeable {s : Store} {ws : List Wanted} {w : Wanted} {e : Error}
    (h : s.CanSettle ws) (hnew : w.key ∉ ws.map Wanted.key) (hw : s.contains w.key = false)
    (he : w.object = .error e) (rest : List Wanted) (report : Report) :
    (settle owner (ws ++ w :: rest) report).run (Store.backend stamps) s =
      ⟨.error e, [], s.putAll stamps (madeFor owner (s.lacking ws))⟩ := by
  have hmade : ∀ r ∈ madeFor owner (s.lacking ws), r.key ∈ ws.map Wanted.key := by
    intro r hr
    obtain ⟨v, hv, hvr⟩ := List.mem_filterMap.mp hr
    obtain ⟨r', hr', rfl⟩ := Option.map_eq_some_iff.mp hvr
    have hv' : v.object = .ok r' := by
      cases hobj : v.object with
      | error e => simp [hobj, Except.toOption] at hr'
      | ok r'' => simpa [hobj, Except.toOption] using hr'
    rw [Resource.key_withOwner, v.key_eq r' hv']
    exact List.mem_map_of_mem (List.mem_of_mem_filter hv)
  have hmiss : (s.putAll stamps (madeFor owner (s.lacking ws))).contains w.key = false := by
    rw [Bool.eq_false_iff, Ne, Store.contains_putAll, not_or, hw]
    refine ⟨fun hmem => ?_, Bool.false_ne_true⟩
    obtain ⟨r, hr, hkey⟩ := List.mem_map.mp hmem
    exact hnew (hkey ▸ hmade r hr)
  rw [settle_append, run_bind]
  simp only [run_settle stamps owner h, settle, run_bind, run_ensure_unmakeable stamps owner hmiss he]
  rfl

end WorkflowOperator
