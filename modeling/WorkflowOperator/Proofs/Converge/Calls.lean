import WorkflowOperator.Proofs.Converge.Effect

/-!
# The calls of a pass

A pass may be answered anything at all. Whatever the answers are, it visits the objects of its workflow
in dependency order, looks each of them up before it creates it, and stops at the first answer that it
cannot go on with.
-/

namespace WorkflowOperator

/-- A call of a pass to a store, and what it was answered. -/
inductive Call
  | lookup (key : ObjectKey) (reply : Outcome Resource)
  | create (r : Resource) (reply : Outcome Resource)

/-- The calls that a pass makes, one after the other. -/
def Pass.calls {σ α : Type} (b : Backend σ) : Pass α → σ → List Call
  | .done _, _ => []
  | .lookup key next, s =>
    let answer := b.lookup key s
    .lookup key answer.1 :: (next answer.1).calls b answer.2
  | .create r next, s =>
    let answer := b.create r s
    .create r answer.1 :: (next answer.1).calls b answer.2
  | .tell _ next, s => next.calls b s

namespace Call

def lookedUp? : Call → Option ObjectKey
  | .lookup key _ => some key
  | .create .. => none

def given? : Call → Option ObjectKey
  | .lookup .. => none
  | .create r _ => some r.key

def created? : Call → Option ObjectKey
  | .create r (.ok _) => some r.key
  | _ => none

/-- The key of an object that a call has shown to be there already. -/
def present? : Call → Option ObjectKey
  | .lookup key (.ok _) => some key
  | .create r (.error e) => if e.isAlreadyExists then some r.key else none
  | _ => none

/-- The error that a pass stops with after a call, if it cannot go on. Objects of some keys cannot be
made, for the given reason. -/
def stop? (unmakeable : ObjectKey → Option Error) : Call → Option Error
  | .lookup _ (.ok _) => none
  | .lookup key (.error e) => if e.isNotFound then unmakeable key else some e
  | .create _ (.ok _) => none
  | .create _ (.error e) => if e.isAlreadyExists then none else some e

end Call

/-- Why the object of a key cannot be made: the manager's files may fail to be assembled. -/
def Workflow.unmakeable? (c : Config) (w : Workflow) (key : ObjectKey) : Option Error :=
  if key = w.filesKey then
    match w.managerFiles c with
    | .error fault => some fault.toError
    | .ok _ => none
  else none

/-- What holds of the calls of a pass and of its result, whatever the calls were answered. -/
structure Disciplined (c : Config) (w : Workflow) (owner : OwnerReference) (calls : List Call)
    (result : Outcome Report) : Prop where
  inOrder : calls.filterMap Call.lookedUp? <+: w.dependencyOrder
  lookedUpOnce : (calls.filterMap Call.lookedUp?).Nodup
  givenOnce : (calls.filterMap Call.given?).Nodup
  createdAfterMiss : ∀ before r reply after, calls = before ++ .create r reply :: after →
    ∃ earlier e, before = earlier ++ [.lookup r.key (.error e)] ∧ e.isNotFound = true
  createsMissing : ∀ before key e after, calls = before ++ .lookup key (.error e) :: after →
    Call.stop? (w.unmakeable? c) (.lookup key (.error e)) = none →
    ∃ r reply rest, after = .create r reply :: rest
  marked : ∀ r reply, .create r reply ∈ calls →
    r.metadata.labels = w.selector ∧ r.metadata.owners = [owner]
  nothingAfterStop : ∀ before call after e, calls = before ++ call :: after →
    call.stop? (w.unmakeable? c) = some e → after = []
  stops : ∀ e, calls.findSome? (Call.stop? (w.unmakeable? c)) = some e → result = .error e
  succeeds : calls.findSome? (Call.stop? (w.unmakeable? c)) = none →
    calls.filterMap Call.lookedUp? = w.dependencyOrder ∧
    result = .ok ⟨w.name, w.inNamespace, calls.filterMap Call.created?,
      calls.filterMap Call.present?⟩

/-! ### Visits -/

/-- The calls by which a pass visits a wanted object, and what comes of the visit. -/
inductive Visit (owner : OwnerReference) (w : Wanted) : List Call → Outcome Settled → Prop
  | found (r : Resource) : Visit owner w [.lookup w.key (.ok r)] (.ok (.present false))
  | unanswered {e : Error} (he : e.isNotFound = false) :
    Visit owner w [.lookup w.key (.error e)] (.error e)
  | unmade {e e' : Error} (he : e.isNotFound = true) (hw : w.object = .error e') :
    Visit owner w [.lookup w.key (.error e)] (.error e')
  | created {e : Error} {r : Resource} (he : e.isNotFound = true) (hw : w.object = .ok r)
    (r' : Resource) :
    Visit owner w [.lookup w.key (.error e), .create (r.withOwner owner) (.ok r')] (.ok .created)
  | raced {e e' : Error} {r : Resource} (he : e.isNotFound = true) (hw : w.object = .ok r)
    (he' : e'.isAlreadyExists = true) :
    Visit owner w [.lookup w.key (.error e), .create (r.withOwner owner) (.error e')]
      (.ok (.present true))
  | refused {e e' : Error} {r : Resource} (he : e.isNotFound = true) (hw : w.object = .ok r)
    (he' : e'.isAlreadyExists = false) :
    Visit owner w [.lookup w.key (.error e), .create (r.withOwner owner) (.error e')] (.error e')

/-- The visits to wanted objects, up to the first that fails. -/
inductive Course (owner : OwnerReference) :
    List Wanted → Report → List Call → Outcome Report → Prop
  | done (report : Report) : Course owner [] report [] (.ok report)
  | stop {w : Wanted} {visit : List Call} {e : Error} (h : Visit owner w visit (.error e))
    (rest : List Wanted) (report : Report) : Course owner (w :: rest) report visit (.error e)
  | next {w : Wanted} {visit : List Call} {settled : Settled} (h : Visit owner w visit (.ok settled))
    {rest : List Wanted} {report : Report} {calls : List Call} {result : Outcome Report}
    (hrest : Course owner rest (report.add w.key settled) calls result) :
    Course owner (w :: rest) report (visit ++ calls) result

section Visiting
variable {σ : Type} (b : Backend σ) (owner : OwnerReference)

lemma calls_silent {α : Type} (p : Pass α) (s : σ) : p.silent.calls b s = p.calls b s := by
  induction p generalizing s with
  | done a => rfl
  | lookup key next ih => simp only [Pass.silent, Pass.calls, ih]
  | create r next ih => simp only [Pass.silent, Pass.calls, ih]
  | tell e next ih => exact ih s

lemma calls_bind {α β : Type} (p : Pass α) (f : α → Pass β) (s : σ) :
    (p.bind f).calls b s =
      p.calls b s ++ (f (p.run b s).result).calls b (p.run b s).state := by
  induction p generalizing s with
  | done a => rfl
  | lookup key next ih => simp only [Pass.bind, Pass.calls, run_lookup, ih, List.cons_append]
  | create r next ih => simp only [Pass.bind, Pass.calls, run_create, ih, List.cons_append]
  | tell e next ih => exact ih s

lemma visit_ensure (w : Wanted) (s : σ) :
    Visit owner w ((w.ensure owner).calls b s) ((w.ensure owner).run b s).result := by
  simp only [Wanted.ensure, Pass.calls, run_lookup]
  generalize b.lookup w.key s = answer
  obtain ⟨reply, s⟩ := answer
  cases reply with
  | ok r => exact .found r
  | error e =>
    cases he : e.isNotFound with
    | false => simpa [he, Pass.calls, Pass.run] using .unanswered he
    | true =>
      cases hw : w.object with
      | error e' => simpa [he, Pass.calls, Pass.run] using .unmade he hw
      | ok r =>
        simp only [he, Bool.not_true, Bool.false_eq_true, if_false, Pass.calls, run_create]
        generalize b.create (r.withOwner owner) s = answer
        obtain ⟨reply, s⟩ := answer
        cases reply with
        | ok r' => exact .created he hw r'
        | error e' =>
          cases he' : e'.isAlreadyExists with
          | false => simpa [he', Pass.calls, Pass.run] using .refused he hw he'
          | true => simpa [he', Pass.calls, Pass.run] using .raced he hw he'

lemma course_settle (ws : List Wanted) (report : Report) (s : σ) :
    Course owner ws report ((settle owner ws report).calls b s)
      ((settle owner ws report).run b s).result := by
  induction ws generalizing report s with
  | nil => exact .done report
  | cons w rest ih =>
    have hvisit := visit_ensure b owner w s
    simp only [settle, calls_bind, run_bind]
    cases hresult : ((w.ensure owner).run b s).result with
    | error e =>
      rw [hresult] at hvisit
      simpa [Pass.calls, Pass.run] using Course.stop hvisit rest report
    | ok settled =>
      rw [hresult] at hvisit
      exact .next hvisit (ih _ _)

end Visiting

/-! ### What a visit does -/

section OneVisit

lemma eq_of_singleton_eq {α : Type} {a call : α} {before rest : List α}
    (h : [a] = before ++ call :: rest) : before = [] ∧ call = a ∧ rest = [] := by
  cases before <;> simp_all

lemma eq_of_pair_eq {α : Type} {a b call : α} {before rest : List α}
    (h : [a, b] = before ++ call :: rest) :
    (before = [] ∧ call = a ∧ rest = [b]) ∨ (before = [a] ∧ call = b ∧ rest = []) := by
  obtain _ | ⟨a', before⟩ := before
  · simp_all
  · rw [List.cons_append, List.cons.injEq] at h
    obtain ⟨rfl, rfl, rfl⟩ := eq_of_singleton_eq h.2
    exact Or.inr ⟨by rw [h.1], rfl, rfl⟩

variable {owner : OwnerReference} {w : Wanted} {visit before rest : List Call} {call : Call}
  {outcome : Outcome Settled} {unmakeable : ObjectKey → Option Error}

lemma Visit.lookedUp (h : Visit owner w visit outcome) : visit.filterMap Call.lookedUp? = [w.key] := by
  cases h <;> rfl

lemma Visit.given (h : Visit owner w visit outcome) :
    (visit.filterMap Call.given?).Sublist [w.key] := by
  cases h with
  | found _ | unanswered _ | unmade _ _ => simp [List.filterMap_cons, Call.given?]
  | created _ hw _ | raced _ hw _ | refused _ hw _ =>
    simp [List.filterMap_cons, Call.given?, w.key_eq _ hw]

lemma Visit.createdAfterMiss (h : Visit owner w visit outcome) {r : Resource}
    {reply : Outcome Resource} (hvisit : visit = before ++ .create r reply :: rest) :
    ∃ e, before = [.lookup r.key (.error e)] ∧ e.isNotFound = true := by
  -- The first three visits consist of a lookup; the others create in their second and last call.
  cases h with
  | found _ | unanswered _ | unmade _ _ => cases (eq_of_singleton_eq hvisit).2.1
  | created he hw _ | raced he hw _ | refused he hw _ =>
    obtain ⟨-, hcall, -⟩ | ⟨rfl, hcall, -⟩ := eq_of_pair_eq hvisit
    · cases hcall
    · rw [Call.create.injEq] at hcall
      refine ⟨_, ?_, he⟩
      rw [hcall.1, Resource.key_withOwner, w.key_eq _ hw]

lemma Visit.marked (h : Visit owner w visit outcome) {r : Resource} {reply : Outcome Resource}
    (hr : .create r reply ∈ visit) : ∃ r', w.object = .ok r' ∧ r = r'.withOwner owner := by
  cases h with
  | found _ | unanswered _ | unmade _ _ => simp at hr
  | created _ hw _ | raced _ hw _ | refused _ hw _ =>
    simp only [List.mem_cons, List.not_mem_nil, or_false, Call.create.injEq, reduceCtorEq,
      false_or] at hr
    exact ⟨_, hw, hr.1⟩

lemma Visit.report_add {settled : Settled} (h : Visit owner w visit (.ok settled))
    (report : Report) : report.add w.key settled = { report with
      created := report.created ++ visit.filterMap Call.created?
      present := report.present ++ visit.filterMap Call.present? } := by
  cases h with
  | found r => simp [Report.add, List.filterMap_cons, Call.created?, Call.present?]
  | created he hw r' =>
    simp [Report.add, List.filterMap_cons, Call.created?, Call.present?, w.key_eq _ hw]
  | raced he hw he' =>
    simp [Report.add, List.filterMap_cons, Call.created?, Call.present?, he', w.key_eq _ hw]

variable (hmake : ∀ e, unmakeable w.key = some e ↔ w.object = .error e)
include hmake

lemma unmakeable_eq_none {r : Resource} (hw : w.object = .ok r) : unmakeable w.key = none := by
  rw [Option.eq_none_iff_forall_ne_some]
  intro e he
  rw [hmake, hw] at he
  cases he

lemma stop?_lookup_missing {e : Error} (he : e.isNotFound = true) {r : Resource}
    (hw : w.object = .ok r) : (Call.lookup w.key (.error e)).stop? unmakeable = none := by
  simp [Call.stop?, he, unmakeable_eq_none hmake hw]

lemma Visit.findSome?_stop?_eq_some_iff (h : Visit owner w visit outcome) (e : Error) :
    visit.findSome? (Call.stop? unmakeable) = some e ↔ outcome = .error e := by
  cases h with
  | found r => simp [Call.stop?]
  | unanswered he => simp [Call.stop?, he]
  | unmade he hw => simp [Call.stop?, he, (hmake _).mpr hw]
  | created he hw r' => simp [Call.stop?, he, unmakeable_eq_none hmake hw]
  | raced he hw he' => simp [Call.stop?, he, he', unmakeable_eq_none hmake hw]
  | refused he hw he' => simp [Call.stop?, he, he', unmakeable_eq_none hmake hw]

lemma Visit.findSome?_stop?_eq_none {settled : Settled} (h : Visit owner w visit (.ok settled)) :
    visit.findSome? (Call.stop? unmakeable) = none := by
  rw [Option.eq_none_iff_forall_ne_some]
  intro e he
  cases (h.findSome?_stop?_eq_some_iff hmake e).mp he

lemma Visit.nothingAfterStop (h : Visit owner w visit outcome) {e : Error}
    (hvisit : visit = before ++ call :: rest) (hstop : call.stop? unmakeable = some e) :
    rest = [] := by
  cases h with
  | found _ | unanswered _ | unmade _ _ => exact (eq_of_singleton_eq hvisit).2.2
  | created he hw _ | raced he hw _ | refused he hw _ =>
    obtain ⟨-, rfl, -⟩ | ⟨-, -, hrest⟩ := eq_of_pair_eq hvisit
    · rw [stop?_lookup_missing hmake he hw] at hstop
      cases hstop
    · exact hrest

lemma Visit.createsMissing (h : Visit owner w visit outcome) {key : ObjectKey} {e : Error}
    (hvisit : visit = before ++ .lookup key (.error e) :: rest)
    (hgo : (Call.lookup key (.error e)).stop? unmakeable = none) :
    ∃ r reply, rest = [.create r reply] := by
  cases h with
  | found r => cases (eq_of_singleton_eq hvisit).2.1
  | unanswered he =>
    rw [(eq_of_singleton_eq hvisit).2.1] at hgo
    simp [Call.stop?, he] at hgo
  | unmade he hw =>
    rw [(eq_of_singleton_eq hvisit).2.1] at hgo
    simp [Call.stop?, he, (hmake _).mpr hw] at hgo
  | created he hw _ | raced he hw _ | refused he hw _ =>
    obtain ⟨-, -, hrest⟩ | ⟨-, hcall, -⟩ := eq_of_pair_eq hvisit
    · exact ⟨_, _, hrest⟩
    · cases hcall

end OneVisit

/-! ### What a course of visits does -/

section Visits

/-- Where a call stands in a visit and the calls after it. -/
lemma append_eq_append_cons {α : Type} {visit calls before after : List α} {call : α}
    (h : visit ++ calls = before ++ call :: after) :
    (∃ rest, visit = before ++ call :: rest ∧ after = rest ++ calls) ∨
      ∃ earlier, before = visit ++ earlier ∧ calls = earlier ++ call :: after := by
  rcases List.append_eq_append_iff.mp h with ⟨earlier, hbefore, hcalls⟩ | ⟨rest, hvisit, hrest⟩
  · exact Or.inr ⟨earlier, hbefore, hcalls⟩
  · rcases List.cons_eq_append_iff.mp hrest with ⟨rfl, hcalls⟩ | ⟨rest, rfl, hafter⟩
    · exact Or.inr ⟨[], by simpa using hvisit.symm, hcalls⟩
    · exact Or.inl ⟨rest, hvisit, hafter⟩

variable {owner : OwnerReference} {ws : List Wanted} {report : Report} {calls : List Call}
  {result : Outcome Report} {unmakeable : ObjectKey → Option Error}

lemma Course.inOrder (h : Course owner ws report calls result) :
    calls.filterMap Call.lookedUp? <+: ws.map Wanted.key ∧
      ((∃ report', result = .ok report') → calls.filterMap Call.lookedUp? = ws.map Wanted.key) := by
  induction h with
  | done report => simp
  | stop h rest report => simp [h.lookedUp]
  | next h _ ih =>
    rw [List.filterMap_append, h.lookedUp, List.map_cons, List.singleton_append]
    exact ⟨List.cons_prefix_cons.mpr ⟨rfl, ih.1⟩, fun hok => by rw [ih.2 hok]⟩

lemma Course.given (h : Course owner ws report calls result) :
    (calls.filterMap Call.given?).Sublist (ws.map Wanted.key) := by
  induction h with
  | done report => exact List.Sublist.refl _
  | stop h rest report => exact h.given.trans (by simp)
  | next h _ ih =>
    rw [List.filterMap_append, List.map_cons, ← List.singleton_append]
    exact h.given.append ih

lemma Course.createdAfterMiss (h : Course owner ws report calls result) {before after : List Call}
    {r : Resource} {reply : Outcome Resource} (hcalls : calls = before ++ .create r reply :: after) :
    ∃ earlier e, before = earlier ++ [.lookup r.key (.error e)] ∧ e.isNotFound = true := by
  induction h generalizing before with
  | done report => simp at hcalls
  | stop h rest report =>
    obtain ⟨e, rfl, he⟩ := h.createdAfterMiss hcalls
    exact ⟨[], e, rfl, he⟩
  | next h _ ih =>
    rcases append_eq_append_cons hcalls with ⟨rest, hvisit, -⟩ | ⟨earlier, rfl, hrest⟩
    · obtain ⟨e, rfl, he⟩ := h.createdAfterMiss hvisit
      exact ⟨[], e, rfl, he⟩
    · obtain ⟨earlier', e, rfl, he⟩ := ih hrest
      exact ⟨_, e, (List.append_assoc _ _ _).symm, he⟩

lemma Course.marked (h : Course owner ws report calls result) {r : Resource}
    {reply : Outcome Resource} (hr : .create r reply ∈ calls) :
    ∃ v ∈ ws, ∃ r', v.object = .ok r' ∧ r = r'.withOwner owner := by
  induction h with
  | done report => cases hr
  | stop h rest report => exact ⟨_, List.mem_cons_self, h.marked hr⟩
  | next h _ ih =>
    rcases List.mem_append.mp hr with hr | hr
    · exact ⟨_, List.mem_cons_self, h.marked hr⟩
    · obtain ⟨v, hv, hmade⟩ := ih hr
      exact ⟨v, List.mem_cons_of_mem _ hv, hmade⟩

lemma Course.reports (h : Course owner ws report calls result) {report' : Report}
    (hresult : result = .ok report') : report' = { report with
      created := report.created ++ calls.filterMap Call.created?
      present := report.present ++ calls.filterMap Call.present? } := by
  induction h with
  | done report =>
    cases hresult
    simp
  | stop h rest report => cases hresult
  | next h _ ih =>
    rw [ih hresult, h.report_add]
    simp [List.filterMap_append, List.append_assoc]

variable (hmake : ∀ v ∈ ws, ∀ e, unmakeable v.key = some e ↔ v.object = .error e)
include hmake

lemma Course.findSome?_stop?_eq_some_iff (h : Course owner ws report calls result) (e : Error) :
    calls.findSome? (Call.stop? unmakeable) = some e ↔ result = .error e := by
  induction h with
  | done report => simp
  | stop h rest report =>
    rw [h.findSome?_stop?_eq_some_iff (hmake _ List.mem_cons_self)]
    simp
  | next h _ ih =>
    rw [List.findSome?_append, h.findSome?_stop?_eq_none (hmake _ List.mem_cons_self),
      Option.none_or]
    exact ih fun v hv => hmake v (List.mem_cons_of_mem _ hv)

lemma Course.nothingAfterStop (h : Course owner ws report calls result) {before after : List Call}
    {call : Call} {e : Error} (hcalls : calls = before ++ call :: after)
    (hstop : call.stop? unmakeable = some e) : after = [] := by
  induction h generalizing before with
  | done report => simp at hcalls
  | stop h rest report => exact h.nothingAfterStop (hmake _ List.mem_cons_self) hcalls hstop
  | next h _ ih =>
    rcases append_eq_append_cons hcalls with ⟨rest, rfl, -⟩ | ⟨earlier, rfl, hrest⟩
    · have hnone := List.findSome?_eq_none_iff.mp
        (h.findSome?_stop?_eq_none (hmake _ List.mem_cons_self))
      rw [hnone call (by simp)] at hstop
      cases hstop
    · exact ih (fun v hv => hmake v (List.mem_cons_of_mem _ hv)) hrest

lemma Course.createsMissing (h : Course owner ws report calls result) {before after : List Call}
    {key : ObjectKey} {e : Error} (hcalls : calls = before ++ .lookup key (.error e) :: after)
    (hgo : (Call.lookup key (.error e)).stop? unmakeable = none) :
    ∃ r reply rest, after = .create r reply :: rest := by
  induction h generalizing before with
  | done report => simp at hcalls
  | stop h rest report =>
    obtain ⟨r, reply, hrest⟩ := h.createsMissing (hmake _ List.mem_cons_self) hcalls hgo
    exact ⟨r, reply, [], hrest⟩
  | next h _ ih =>
    rcases append_eq_append_cons hcalls with ⟨rest, hvisit, rfl⟩ | ⟨earlier, rfl, hrest⟩
    · obtain ⟨r, reply, rfl⟩ := h.createsMissing (hmake _ List.mem_cons_self) hvisit hgo
      exact ⟨r, reply, _, rfl⟩
    · exact ih (fun v hv => hmake v (List.mem_cons_of_mem _ hv)) hrest

end Visits

/-! ### The calls of a pass toward a workflow -/

section Converging
variable {c : Config} {desired w : Workflow} {uid : String}

lemma unmakeable?_eq_some_iff (c : Config) (w : Workflow) :
    ∀ v ∈ w.wanted c, ∀ e, w.unmakeable? c v.key = some e ↔ v.object = .error e := by
  intro v hv e
  by_cases hkey : v.key = w.filesKey
  · obtain rfl : v = w.wantedManagerFiles c :=
      List.inj_on_of_nodup_map (nodup_wanted c w) hv (by simp [Workflow.wanted]) hkey
    cases hfiles : w.managerFiles c with
    | error fault =>
      simp [Workflow.unmakeable?, hkey, hfiles, object_wantedManagerFiles_error hfiles]
    | ok files => simp [Workflow.unmakeable?, hkey, hfiles, object_wantedManagerFiles hfiles]
  · obtain ⟨r, rfl⟩ : ∃ r, v = .of r := by
      simp only [Workflow.wanted, List.mem_append, List.mem_map, List.mem_cons, List.not_mem_nil,
        or_false] at hv
      rcases hv with ⟨r, -, rfl⟩ | rfl | rfl
      exacts [⟨r, rfl⟩, absurd rfl hkey, ⟨_, rfl⟩]
    rw [Workflow.unmakeable?, if_neg hkey]
    simp [Wanted.of]

lemma mem_objectsWith_of_mem_wanted {v : Wanted} (hv : v ∈ w.wanted c) {r : Resource}
    (hr : v.object = .ok r) : ∃ files, r ∈ w.objectsWith c files := by
  simp only [Workflow.wanted, List.mem_append, List.mem_map, List.mem_cons, List.not_mem_nil,
    or_false] at hv
  rcases hv with ⟨r', hr', rfl⟩ | rfl | rfl
  · cases hr
    exact ⟨∅, List.mem_append_left _ hr'⟩
  · cases hfiles : w.managerFiles c with
    | error fault =>
      rw [object_wantedManagerFiles_error hfiles] at hr
      cases hr
    | ok files =>
      rw [object_wantedManagerFiles hfiles] at hr
      cases hr
      exact ⟨files, by simp [Workflow.objectsWith]⟩
  · cases hr
    exact ⟨∅, by simp [Workflow.objectsWith]⟩

lemma calls_of_prepare_error {σ : Type} (b : Backend σ) {e : Error}
    (h : desired.prepare c = .error e) (s : σ) :
    (desired.converge c).calls b s = [] ∧ ((desired.converge c).run b s).result = .error e := by
  simp [Workflow.converge, h, Pass.calls, Pass.run]

lemma course_converge {σ : Type} (b : Backend σ) (h : desired.validate c = .ok w)
    (hu : w.identity.uid = some uid) (s : σ) :
    Course (w.ownerWith uid) (w.wanted c) w.blankReport ((desired.converge c).calls b s)
      ((desired.converge c).run b s).result := by
  have hcourse := course_settle b (w.ownerWith uid) (w.wanted c) w.blankReport s
  rwa [← silent_converge h hu, calls_silent, run_silent] at hcourse

lemma marked_of_mem_calls {σ : Type} (b : Backend σ) (h : desired.validate c = .ok w)
    (hu : w.identity.uid = some uid) (s : σ) {r : Resource} {reply : Outcome Resource}
    (hr : .create r reply ∈ (desired.converge c).calls b s) :
    r.metadata.labels = w.selector ∧ r.metadata.owners = [w.ownerWith uid] := by
  obtain ⟨v, hv, r', hr', rfl⟩ := (course_converge b h hu s).marked hr
  obtain ⟨files, hmem⟩ := mem_objectsWith_of_mem_wanted hv hr'
  have hlabels := Workflow.labels_of_mem_objectsWith hmem
  have howners := Workflow.owners_of_mem_objectsWith hmem
  exact ⟨by simpa [Resource.withOwner] using hlabels, by simp [Resource.withOwner, howners]⟩

/-- Whatever a store answers, a pass makes no call if its workflow is refused, and otherwise it is
disciplined. -/
theorem converge_is_disciplined {σ : Type} (b : Backend σ) (s : σ) (c : Config)
    (desired : Workflow) :
    let calls := (desired.converge c).calls b s
    let result := ((desired.converge c).run b s).result
    (∀ e, desired.validate c = .error e → calls = [] ∧ result = .error e) ∧
    (∀ w, desired.validate c = .ok w → w.identity.uid = none →
      calls = [] ∧ result = .error (Violation.noUid w.name).toError) ∧
    ∀ w uid, desired.validate c = .ok w → w.identity.uid = some uid →
      Disciplined c w (w.ownerWith uid) calls result := by
  intro calls result
  refine ⟨fun e h => calls_of_prepare_error b (prepare_of_validate_error h) s,
    fun w h hu => calls_of_prepare_error b (prepare_of_no_uid h hu) s, fun w uid h hu => ?_⟩
  have hcourse : Course _ _ _ calls result := course_converge b h hu s
  have hmake := unmakeable?_eq_some_iff c w
  have hstops := hcourse.findSome?_stop?_eq_some_iff hmake
  have horder := hcourse.inOrder
  have hgiven := hcourse.given
  have hnodup := w.nodup_dependencyOrder
  rw [Workflow.keys_wanted] at horder hgiven
  refine ⟨horder.1, hnodup.sublist horder.1.sublist, hnodup.sublist hgiven,
    fun _ _ _ _ => hcourse.createdAfterMiss, fun _ _ _ _ => hcourse.createsMissing hmake,
    fun _ _ => marked_of_mem_calls b h hu s, fun _ _ _ _ => hcourse.nothingAfterStop hmake,
    fun e => (hstops e).mp, fun hnone => ?_⟩
  cases hresult : result with
  | error e =>
    rw [(hstops e).mpr hresult] at hnone
    cases hnone
  | ok report =>
    refine ⟨horder.2 ⟨report, hresult⟩, ?_⟩
    rw [hcourse.reports hresult]
    simp [Workflow.blankReport]

end Converging

end WorkflowOperator
