import WorkflowOperator.Proofs.Converge.Calls

/-!
# What an observer of a pass is told

A pass tells an observer of each step that it starts, of each object that it settles and how, and
last of its result. Whatever a store answers, what is told can be read off the calls: they fall into
one stretch for each step, and each answer that settles an object is told once, under its step.
-/

namespace WorkflowOperator

/-- The steps that a pass toward a workflow visits, from the first on. An external registry needs
none. -/
def Workflow.steps (w : Workflow) : List Step :=
  [.network, .accessControl] ++ (if w.hasInClusterRegistry then [.registry] else []) ++ [.manager]

def Workflow.stepKeys (w : Workflow) : Step → List ObjectKey
  | .network => [w.keyOf .service w.serviceName]
  | .accessControl =>
    [w.keyOf .serviceAccount w.serviceAccountName, w.keyOf .clusterRole w.clusterRoleName,
      w.keyOf .clusterRoleBinding w.clusterRoleName, w.keyOf .role w.roleName,
      w.keyOf .roleBinding w.roleName]
  | .registry => [w.keyOf .statefulSet w.registryName]
  | .manager => [w.keyOf .configMap w.managerName, w.keyOf .deployment w.managerName]

namespace Event

def workflow : Event → String
  | .started workflow _ | .created workflow _ _ | .present workflow _ _ _ | .failed workflow _ _ =>
    workflow
  | .converged report => report.workflow

/-- The step and the key of an object of which an observer is told that it is there now. -/
def settled? : Event → Option (Step × ObjectKey)
  | .created _ step key | .present _ step key _ => some (step, key)
  | _ => none

def created? : Event → Option ObjectKey
  | .created _ _ key => some key
  | _ => none

def present? : Event → Option ObjectKey
  | .present _ _ key _ => some key
  | _ => none

def isLast : Event → Bool
  | .converged _ | .failed .. => true
  | _ => false

end Event

/-- What an observer is told of a call in a step toward a workflow. Nothing is told of a lookup in
vain and of a call that the pass stops at. -/
def Call.told? (workflow : String) (step : Step) : Call → Option Event
  | .lookup key (.ok _) => some (.present workflow step key false)
  | .lookup _ (.error _) => none
  | .create r (.ok _) => some (.created workflow step r.key)
  | .create r (.error e) =>
    if e.isAlreadyExists then some (.present workflow step r.key true) else none

/-- The calls of a pass in one of its steps. -/
structure Stage where
  step : Step
  calls : List Call

def Stage.events (workflow : String) (stage : Stage) : List Event :=
  .started workflow stage.step :: stage.calls.filterMap (Call.told? workflow stage.step)

/-- What an observer is told last, of a pass toward a workflow that was in the given step. -/
def lastEvent (workflow : String) (step : Option Step) : Outcome Report → Event
  | .ok report => .converged report
  | .error e => .failed workflow step e

/-- What holds of the events of a pass, whatever its calls were answered. The calls fall into stages,
one for each step that was visited. -/
structure Observed (c : Config) (w : Workflow) (calls : List Call) (events : List Event)
    (result : Outcome Report) (stages : List Stage) : Prop where
  calls_eq : calls = stages.flatMap Stage.calls
  events_eq : events = stages.flatMap (Stage.events w.name) ++
    [lastEvent w.name (stages.getLast?.map Stage.step) result]
  named : ∀ event ∈ events, event.workflow = w.name
  endsOnce : events.countP Event.isLast = 1
  stepsInOrder : stages.map Stage.step <+: w.steps
  lookupsInOrder : ∀ stage ∈ stages,
    stage.calls.filterMap Call.lookedUp? <+: w.stepKeys stage.step
  attributed : ∀ step key, (step, key) ∈ events.filterMap Event.settled? → key ∈ w.stepKeys step
  onceForEachKey : (events.filterMap Event.settled?).map Prod.snd <+: w.dependencyOrder
  created_iff : ∀ key, (∃ step, .created w.name step key ∈ events) ↔
    ∃ r r', .create r (.ok r') ∈ calls ∧ r.key = key
  raced_iff : ∀ key, (∃ step, .present w.name step key true ∈ events) ↔
    ∃ e r e', .lookup key (.error e) ∈ calls ∧ e.isNotFound = true ∧
      .create r (.error e') ∈ calls ∧ r.key = key ∧ e'.isAlreadyExists = true
  found_iff : ∀ key, (∃ step, .present w.name step key false ∈ events) ↔
    ∃ r, .lookup key (.ok r) ∈ calls
  finishesSteps : ∀ earlier stage next later, stages = earlier ++ stage :: next :: later →
    ((stage.events w.name).filterMap Event.settled?).map Prod.snd = w.stepKeys stage.step
  succeeds : ∀ report, result = .ok report →
    stages.map Stage.step = w.steps ∧
    (events.filterMap Event.settled?).map Prod.snd = w.dependencyOrder ∧
    report.created = events.filterMap Event.created? ∧
    report.present = events.filterMap Event.present?
  fails : ∀ e, result = .error e → ∃ earlier stage before call,
    stages = earlier ++ [stage] ∧ stage.calls = before ++ [call] ∧
    call.stop? (w.unmakeable? c) = some e

/-! ### What is told of visits -/

def Call.settled? (call : Call) : Option ObjectKey := call.created?.or call.present?

section Visits
variable {owner : OwnerReference}

lemma Visit.told {w : Wanted} {visit : List Call} {outcome : Outcome Settled}
    (h : Visit owner w visit outcome) (workflow : String) (step : Step) :
    visit.filterMap (Call.told? workflow step) =
      outcome.toOption.toList.map (Settled.event workflow step w.key) := by
  cases h with
  | found r => rfl
  | unanswered he => rfl
  | unmade he hw => rfl
  | created he hw r' =>
    simp [List.filterMap_cons, Call.told?, Except.toOption, Settled.event, w.key_eq _ hw]
  | raced he hw he' =>
    simp [List.filterMap_cons, Call.told?, he', Except.toOption, Settled.event, w.key_eq _ hw]
  | refused he hw he' => simp [List.filterMap_cons, Call.told?, he', Except.toOption]

lemma Visit.settled {w : Wanted} {visit : List Call} {outcome : Outcome Settled}
    (h : Visit owner w visit outcome) : visit.filterMap Call.settled? =
      outcome.toOption.toList.map fun _ => w.key := by
  cases h with
  | found r => rfl
  | unanswered he => rfl
  | unmade he hw => rfl
  | created he hw r' =>
    simp [Call.settled?, Call.created?, Call.present?, Except.toOption, w.key_eq _ hw]
  | raced he hw he' =>
    simp [Call.settled?, Call.created?, Call.present?, he', Except.toOption, w.key_eq _ hw]
  | refused he hw he' => simp [Call.settled?, Call.created?, Call.present?, he', Except.toOption]

variable {ws : List Wanted} {report : Report} {calls : List Call} {result : Outcome Report}

lemma Course.settled (h : Course owner ws report calls result) :
    calls.filterMap Call.settled? <+: ws.map Wanted.key ∧
      ((∃ report', result = .ok report') → calls.filterMap Call.settled? = ws.map Wanted.key) := by
  induction h with
  | done report => simp
  | stop h rest report => simp [h.settled, Except.toOption]
  | next h _ ih =>
    rw [List.filterMap_append, h.settled, List.map_cons]
    exact ⟨List.cons_prefix_cons.mpr ⟨rfl, ih.1⟩, fun hok => congrArg _ (ih.2 hok)⟩

lemma Course.workflow_eq {report' : Report} (h : Course owner ws report calls (.ok report')) :
    report'.workflow = report.workflow := by
  rw [h.reports rfl]

lemma Course.stopsLast {unmakeable : ObjectKey → Option Error} {e : Error}
    (hmake : ∀ v ∈ ws, ∀ e, unmakeable v.key = some e ↔ v.object = .error e)
    (h : Course owner ws report calls (.error e)) :
    ∃ before call, calls = before ++ [call] ∧ call.stop? unmakeable = some e := by
  have hstop := (h.findSome?_stop?_eq_some_iff hmake e).mpr rfl
  obtain ⟨before, call, after, hcalls, hcall, -⟩ := List.findSome?_eq_some_iff.mp hstop
  have hafter := h.nothingAfterStop hmake hcalls hcall
  exact ⟨before, call, by rw [hcalls, hafter], hcall⟩

lemma Course.missed_of_create (h : Course owner ws report calls result) {r : Resource}
    {reply : Outcome Resource} (hcall : .create r reply ∈ calls) :
    ∃ e, .lookup r.key (.error e) ∈ calls ∧ e.isNotFound = true := by
  obtain ⟨before, after, hsplit⟩ := List.append_of_mem hcall
  obtain ⟨earlier, e, rfl, he⟩ := h.createdAfterMiss hsplit
  exact ⟨e, by simp [hsplit], he⟩

end Visits

/-! ### Stages -/

/-- The stages of a pass that takes steps, up to the first that fails. -/
inductive Staged (owner : OwnerReference) :
    List (Step × List Wanted) → Report → List Stage → Outcome Report → Prop
  | done (report : Report) : Staged owner [] report [] (.ok report)
  | stop {ws : List Wanted} {report : Report} {calls : List Call} {e : Error}
    (h : Course owner ws report calls (.error e)) (step : Step) (rest : List (Step × List Wanted)) :
    Staged owner ((step, ws) :: rest) report [⟨step, calls⟩] (.error e)
  | next {ws : List Wanted} {report report' : Report} {calls : List Call}
    (h : Course owner ws report calls (.ok report')) (step : Step)
    {rest : List (Step × List Wanted)} {stages : List Stage} {result : Outcome Report}
    (hrest : Staged owner rest report' stages result) :
    Staged owner ((step, ws) :: rest) report (⟨step, calls⟩ :: stages) result

/-- The step of the last stage counts only after a failure, which is never that of a stage before. -/
lemma Staged.lastEvent_cons {owner : OwnerReference} {steps : List (Step × List Wanted)}
    {report : Report} {stages : List Stage} {result : Outcome Report}
    (h : Staged owner steps report stages result) (workflow : String) (stage : Stage) :
    lastEvent workflow ((stage :: stages).getLast?.map Stage.step) result =
      lastEvent workflow (stages.getLast?.map Stage.step) result := by
  cases h with
  | done report => rfl
  | stop h step rest => rfl
  | next h step hrest => rw [List.getLast?_cons_cons]

section Running
variable {σ : Type} (b : Backend σ) (owner : OwnerReference)

lemma events_ensure (w : Wanted) (s : σ) : ((w.ensure owner).run b s).events = [] := by
  have h := congrArg Ran.events (run_silent b (w.ensure owner) s)
  rwa [silent_ensure] at h

lemma workflow_add (report : Report) (key : ObjectKey) (settled : Settled) :
    (report.add key settled).workflow = report.workflow := by
  cases settled <;> rfl

lemma events_ensureAll (step : Step) (ws : List Wanted) (report : Report) (s : σ) :
    ((ensureAll owner step ws report).run b s).events =
      ((ensureAll owner step ws report).calls b s).filterMap
        (Call.told? report.workflow step) := by
  induction ws generalizing report s with
  | nil => rfl
  | cons w rest ih =>
    have htold := (visit_ensure b owner w s).told report.workflow step
    simp only [ensureAll, run_bind, calls_bind, events_ensure, List.nil_append,
      List.filterMap_append, htold]
    cases ((w.ensure owner).run b s).result with
    | error e => rfl
    | ok settled =>
      have hrest := ih (report.add w.key settled) ((w.ensure owner).run b s).state
      rw [workflow_add] at hrest
      exact congrArg _ hrest

lemma course_ensureAll (step : Step) (ws : List Wanted) (report : Report) (s : σ) :
    Course owner ws report ((ensureAll owner step ws report).calls b s)
      ((ensureAll owner step ws report).run b s).result := by
  have h := course_settle b owner ws report s
  rwa [← silent_ensureAll owner step, calls_silent, run_silent] at h

lemma exists_staged (workflow : String) (steps : List (Step × List Wanted)) (report : Report)
    (hname : report.workflow = workflow) (s : σ) :
    let ran := (takeSteps workflow owner steps report).run b s
    ∃ stages, Staged owner steps report stages ran.result ∧
      (takeSteps workflow owner steps report).calls b s = stages.flatMap Stage.calls ∧
      ran.events = stages.flatMap (Stage.events workflow) ++
        [lastEvent workflow (stages.getLast?.map Stage.step) ran.result] := by
  induction steps generalizing report s with
  | nil => exact ⟨[], .done report, rfl, rfl⟩
  | cons head rest ih =>
    obtain ⟨step, ws⟩ := head
    have hcourse := course_ensureAll b owner step ws report s
    simp only [takeSteps, Pass.run, Pass.calls, run_bind, calls_bind, events_ensureAll, hname]
    cases hresult : ((ensureAll owner step ws report).run b s).result with
    | error e =>
      rw [hresult] at hcourse
      refine ⟨_, .stop hcourse step rest, ?_, ?_⟩
      · simp [Pass.calls]
      · simp [Pass.run, Stage.events, lastEvent]
    | ok report' =>
      rw [hresult] at hcourse
      obtain ⟨stages, hstaged, hcalls, hevents⟩ :=
        ih report' (hcourse.workflow_eq.trans hname) ((ensureAll owner step ws report).run b s).state
      refine ⟨_, .next hcourse step hstaged, ?_, ?_⟩
      · simp [hcalls]
      · rw [hevents, hstaged.lastEvent_cons]
        simp [Stage.events]

end Running

section Stages
variable {owner : OwnerReference} {steps : List (Step × List Wanted)} {report : Report}
  {stages : List Stage} {result : Outcome Report}

lemma Staged.stepsInOrder (h : Staged owner steps report stages result) :
    stages.map Stage.step <+: steps.map Prod.fst ∧
      ((∃ report', result = .ok report') → stages.map Stage.step = steps.map Prod.fst) := by
  induction h with
  | done report => simp
  | stop h step rest => simp
  | next h step _ ih =>
    exact ⟨List.cons_prefix_cons.mpr ⟨rfl, ih.1⟩, fun hok => congrArg _ (ih.2 hok)⟩

lemma Staged.exists_course (h : Staged owner steps report stages result) {stage : Stage}
    (hstage : stage ∈ stages) : ∃ ws report result, (stage.step, ws) ∈ steps ∧
      Course owner ws report stage.calls result := by
  induction h with
  | done report => cases hstage
  | stop h step rest =>
    obtain rfl := List.mem_singleton.mp hstage
    exact ⟨_, _, _, List.mem_cons_self, h⟩
  | next h step _ ih =>
    rcases List.mem_cons.mp hstage with rfl | hstage
    · exact ⟨_, _, _, List.mem_cons_self, h⟩
    · obtain ⟨ws, report, result, hmem, hcourse⟩ := ih hstage
      exact ⟨ws, report, result, List.mem_cons_of_mem _ hmem, hcourse⟩

lemma Staged.finishesSteps (h : Staged owner steps report stages result) {earlier later : List Stage}
    {stage next : Stage} (hstages : stages = earlier ++ stage :: next :: later) :
    ∃ ws report report', (stage.step, ws) ∈ steps ∧
      Course owner ws report stage.calls (.ok report') := by
  induction h generalizing earlier with
  | done report => simp at hstages
  | stop h step rest => simp [List.singleton_eq_append_iff] at hstages
  | next h step _ ih =>
    rcases List.cons_eq_append_iff.mp hstages with ⟨-, hstage⟩ | ⟨earlier, -, hstages⟩
    · obtain ⟨rfl, -⟩ := List.cons.inj hstage
      exact ⟨_, _, _, List.mem_cons_self, h⟩
    · obtain ⟨ws, report, report', hmem, hcourse⟩ := ih hstages
      exact ⟨ws, report, report', List.mem_cons_of_mem _ hmem, hcourse⟩

lemma Staged.failsLast {e : Error} (h : Staged owner steps report stages (.error e)) :
    ∃ earlier stage ws report, stages = earlier ++ [stage] ∧ (stage.step, ws) ∈ steps ∧
      Course owner ws report stage.calls (.error e) := by
  generalize hresult : Except.error e = result at h
  induction h with
  | done report => cases hresult
  | stop h step rest =>
    cases hresult
    exact ⟨[], _, _, _, rfl, List.mem_cons_self, h⟩
  | next h step _ ih =>
    obtain ⟨earlier, stage, ws, report, rfl, hmem, hcourse⟩ := ih hresult
    exact ⟨_ :: earlier, stage, ws, report, rfl, List.mem_cons_of_mem _ hmem, hcourse⟩

end Stages

/-! ### Events and calls -/

/-- What an observer is told of stages, and at last of a result. -/
def eventsOf (workflow : String) (stages : List Stage) (last : Option Step)
    (result : Outcome Report) : List Event :=
  stages.flatMap (Stage.events workflow) ++ [lastEvent workflow last result]

section Telling
variable {workflow : String} {stages : List Stage} {last : Option Step} {result : Outcome Report}

/-- The kinds of answers that a pass tells apart. -/
@[elab_as_elim]
lemma Call.byAnswer {motive : Call → Prop} (found : ∀ key r, motive (.lookup key (.ok r)))
    (unfound : ∀ key e, motive (.lookup key (.error e)))
    (created : ∀ r r', motive (.create r (.ok r')))
    (raced : ∀ r e, e.isAlreadyExists = true → motive (.create r (.error e)))
    (refused : ∀ r e, e.isAlreadyExists = false → motive (.create r (.error e))) :
    ∀ call, motive call
  | .lookup key (.ok r) => found key r
  | .lookup key (.error e) => unfound key e
  | .create r (.ok r') => created r r'
  | .create r (.error e) =>
    match h : e.isAlreadyExists with
    | true => raced r e h
    | false => refused r e h

lemma told_eq_created_iff {call : Call} {step step' : Step} {key : ObjectKey} :
    call.told? workflow step = some (.created workflow step' key) ↔
      step = step' ∧ ∃ r r', call = .create r (.ok r') ∧ r.key = key := by
  cases call using Call.byAnswer with
  | found | unfound | created => simp [Call.told?]
  | raced r e he | refused r e he => simp [Call.told?, he]

lemma told_eq_raced_iff {call : Call} {step step' : Step} {key : ObjectKey} :
    call.told? workflow step = some (.present workflow step' key true) ↔
      step = step' ∧ ∃ r e, call = .create r (.error e) ∧ r.key = key ∧ e.isAlreadyExists = true := by
  cases call using Call.byAnswer with
  | found | unfound | created => simp [Call.told?]
  | raced r e he | refused r e he => simp [Call.told?, he]

lemma told_eq_found_iff {call : Call} {step step' : Step} {key : ObjectKey} :
    call.told? workflow step = some (.present workflow step' key false) ↔
      step = step' ∧ ∃ r, call = .lookup key (.ok r) := by
  cases call using Call.byAnswer with
  | found | unfound | created => simp [Call.told?]
  | raced r e he | refused r e he => simp [Call.told?, he]

lemma exists_settled_of_told {call : Call} {step : Step} {event : Event}
    (h : call.told? workflow step = some event) :
    ∃ key settled, event = Settled.event workflow step key settled := by
  cases call using Call.byAnswer with
  | found key r =>
    cases h
    exact ⟨key, .present false, rfl⟩
  | unfound => cases h
  | created r r' =>
    cases h
    exact ⟨r.key, .created, rfl⟩
  | raced r e he =>
    rw [Call.told?, if_pos he] at h
    cases h
    exact ⟨r.key, .present true, rfl⟩
  | refused r e he => simp [Call.told?, he] at h

lemma isLast_of_told {call : Call} {step : Step} {event : Event}
    (h : call.told? workflow step = some event) : event.isLast = false := by
  obtain ⟨key, settled, rfl⟩ := exists_settled_of_told h
  cases settled <;> rfl

lemma workflow_of_told {call : Call} {step : Step} {event : Event}
    (h : call.told? workflow step = some event) : event.workflow = workflow := by
  obtain ⟨key, settled, rfl⟩ := exists_settled_of_told h
  cases settled <;> rfl

/-- An observer is told an event, in some step, if and only if a call of the pass is one of which it is
told. -/
lemma exists_mem_events_iff {event : Step → Event} {IsTold : Call → Prop}
    (hstarted : ∀ step step', event step ≠ .started workflow step')
    (hlast : ∀ step, (event step).isLast = false)
    (htold : ∀ {call step step'},
      call.told? workflow step = some (event step') ↔ step = step' ∧ IsTold call) :
    (∃ step, event step ∈ eventsOf workflow stages last result) ↔
      ∃ call ∈ stages.flatMap Stage.calls, IsTold call := by
  have hne : ∀ step, event step ≠ lastEvent workflow last result := by
    intro step he
    have hnot := hlast step
    rw [he] at hnot
    cases result <;> cases hnot
  simp only [eventsOf, List.mem_append, List.mem_cons, List.not_mem_nil, hne, or_false,
    List.mem_flatMap, Stage.events, hstarted, false_or, List.mem_filterMap, htold]
  constructor
  · rintro ⟨step, stage, hstage, call, hcall, -, hp⟩
    exact ⟨call, ⟨stage, hstage, hcall⟩, hp⟩
  · rintro ⟨call, ⟨stage, hstage, hcall⟩, hp⟩
    exact ⟨stage.step, stage, hstage, call, hcall, rfl, hp⟩

lemma workflow_of_mem_events (hresult : ∀ report, result = .ok report → report.workflow = workflow)
    {event : Event} (h : event ∈ eventsOf workflow stages last result) :
    event.workflow = workflow := by
  rcases List.mem_append.mp h with h | h
  · obtain ⟨stage, -, hevent⟩ := List.mem_flatMap.mp h
    rcases List.mem_cons.mp hevent with rfl | hevent
    · rfl
    · obtain ⟨call, -, htold⟩ := List.mem_filterMap.mp hevent
      exact workflow_of_told htold
  · rw [List.mem_singleton.mp h]
    cases result with
    | ok report => exact hresult report rfl
    | error e => rfl

lemma countP_isLast : (eventsOf workflow stages last result).countP Event.isLast = 1 := by
  have hnone : (stages.flatMap (Stage.events workflow)).countP Event.isLast = 0 := by
    rw [List.countP_eq_zero]
    intro event hevent
    obtain ⟨stage, -, hevent⟩ := List.mem_flatMap.mp hevent
    rcases List.mem_cons.mp hevent with rfl | hevent
    · simp [Event.isLast]
    · obtain ⟨call, -, htold⟩ := List.mem_filterMap.mp hevent
      simp [isLast_of_told htold]
  rw [eventsOf, List.countP_append, hnone]
  cases result <;> rfl

/-- What a reading of events finds in a stage is what a reading of calls finds there, if the two agree
on what is told of each call. -/
lemma filterMap_stage {β : Type} {ofEvent : Event → Option β} {ofCall : Step → Call → Option β}
    (hstarted : ∀ step, ofEvent (.started workflow step) = none)
    (htold : ∀ step call, (call.told? workflow step).bind ofEvent = ofCall step call) (stage : Stage) :
    (stage.events workflow).filterMap ofEvent = stage.calls.filterMap (ofCall stage.step) := by
  rw [Stage.events, List.filterMap_cons, hstarted, List.filterMap_filterMap]
  simp only [htold]

lemma filterMap_events {β : Type} {ofEvent : Event → Option β} {ofCall : Step → Call → Option β}
    (hstarted : ∀ step, ofEvent (.started workflow step) = none)
    (htold : ∀ step call, (call.told? workflow step).bind ofEvent = ofCall step call)
    (hlast : ofEvent (lastEvent workflow last result) = none) :
    (eventsOf workflow stages last result).filterMap ofEvent =
      stages.flatMap fun stage => stage.calls.filterMap (ofCall stage.step) := by
  simp only [eventsOf, List.filterMap_append, List.filterMap_cons, hlast, List.filterMap_nil,
    List.append_nil, List.filterMap_flatMap, filterMap_stage hstarted htold]

end Telling

section Readings
variable (workflow : String) (step : Step) (call : Call)

lemma told_created : (call.told? workflow step).bind Event.created? = call.created? := by
  cases call using Call.byAnswer with
  | found | unfound | created => rfl
  | raced r e he | refused r e he => simp [Call.told?, he, Event.created?, Call.created?]

lemma told_present : (call.told? workflow step).bind Event.present? = call.present? := by
  cases call using Call.byAnswer with
  | found | unfound | created => rfl
  | raced r e he | refused r e he => simp [Call.told?, he, Event.present?, Call.present?]

lemma told_settled : (call.told? workflow step).bind Event.settled? =
    call.settled?.map fun key => (step, key) := by
  cases call using Call.byAnswer with
  | found | unfound | created => rfl
  | raced r e he | refused r e he =>
    simp [Call.told?, he, Event.settled?, Call.settled?, Call.created?, Call.present?]

end Readings

section Lists
variable {workflow : String} {stages : List Stage} {last : Option Step} {result : Outcome Report}
  {key : ObjectKey}

lemma exists_created_mem_iff :
    (∃ step, .created workflow step key ∈ eventsOf workflow stages last result) ↔
      ∃ r r', .create r (.ok r') ∈ stages.flatMap Stage.calls ∧ r.key = key := by
  rw [exists_mem_events_iff (by simp) (by simp [Event.isLast]) told_eq_created_iff]
  constructor
  · rintro ⟨call, hcall, r, r', rfl, hkey⟩
    exact ⟨r, r', hcall, hkey⟩
  · rintro ⟨r, r', hcall, hkey⟩
    exact ⟨_, hcall, r, r', rfl, hkey⟩

lemma exists_raced_mem_iff :
    (∃ step, .present workflow step key true ∈ eventsOf workflow stages last result) ↔
      ∃ r e, .create r (.error e) ∈ stages.flatMap Stage.calls ∧ r.key = key ∧
        e.isAlreadyExists = true := by
  rw [exists_mem_events_iff (by simp) (by simp [Event.isLast]) told_eq_raced_iff]
  constructor
  · rintro ⟨call, hcall, r, e, rfl, hkey, he⟩
    exact ⟨r, e, hcall, hkey, he⟩
  · rintro ⟨r, e, hcall, hkey, he⟩
    exact ⟨_, hcall, r, e, rfl, hkey, he⟩

lemma exists_found_mem_iff :
    (∃ step, .present workflow step key false ∈ eventsOf workflow stages last result) ↔
      ∃ r, .lookup key (.ok r) ∈ stages.flatMap Stage.calls := by
  rw [exists_mem_events_iff (by simp) (by simp [Event.isLast]) told_eq_found_iff]
  constructor
  · rintro ⟨call, hcall, r, rfl⟩
    exact ⟨r, hcall⟩
  · rintro ⟨r, hcall⟩
    exact ⟨_, hcall, r, rfl⟩

lemma created_of_events :
    (eventsOf workflow stages last result).filterMap Event.created? =
      (stages.flatMap Stage.calls).filterMap Call.created? := by
  have hlast : Event.created? (lastEvent workflow last result) = none := by cases result <;> rfl
  rw [filterMap_events (fun _ => rfl) (told_created workflow) hlast, List.filterMap_flatMap]

lemma present_of_events :
    (eventsOf workflow stages last result).filterMap Event.present? =
      (stages.flatMap Stage.calls).filterMap Call.present? := by
  have hlast : Event.present? (lastEvent workflow last result) = none := by cases result <;> rfl
  rw [filterMap_events (fun _ => rfl) (told_present workflow) hlast, List.filterMap_flatMap]

end Lists

/-! ### The events of a pass toward a workflow -/

section Converging
variable {c : Config} {desired w : Workflow} {uid : String}

lemma steps_plan (c : Config) (w : Workflow) : (w.plan c).map Prod.fst = w.steps := by
  unfold Workflow.plan Workflow.steps
  cases w.hasInClusterRegistry <;> rfl

lemma stepKeys_of_mem_plan {step : Step} {ws : List Wanted} (h : (step, ws) ∈ w.plan c) :
    ws.map Wanted.key = w.stepKeys step := by
  simp only [Workflow.plan, List.mem_append, List.mem_cons, Prod.mk.injEq, List.not_mem_nil,
    or_false] at h
  rcases h with ((⟨rfl, rfl⟩ | ⟨rfl, rfl⟩) | h) | ⟨rfl, rfl⟩
  case inl.inr =>
    split at h
    next =>
      obtain ⟨rfl, rfl⟩ := Prod.mk.inj (List.mem_singleton.mp h)
      rfl
    next => cases h
  all_goals rfl

lemma mem_wanted_of_mem_plan {step : Step} {ws : List Wanted} (h : (step, ws) ∈ w.plan c)
    {v : Wanted} (hv : v ∈ ws) : v ∈ w.wanted c := by
  rw [← Workflow.allWanted_plan]
  exact List.mem_flatMap.mpr ⟨_, h, hv⟩

lemma run_of_prepare_error {σ : Type} (b : Backend σ) {e : Error}
    (h : desired.prepare c = .error e) (s : σ) :
    ((desired.converge c).run b s).events = [.failed desired.name none e] ∧
      ((desired.converge c).run b s).result = .error e := by
  simp [Workflow.converge, h, Pass.run]

section Stages
variable {owner : OwnerReference} {workflow : String} {report : Report} {stages : List Stage}
  {result : Outcome Report}

lemma keys_of_stage (stage : Stage) :
    ((stage.events workflow).filterMap Event.settled?).map Prod.snd =
      stage.calls.filterMap Call.settled? := by
  rw [filterMap_stage (fun _ => rfl) (told_settled workflow), List.map_filterMap]
  simp [Function.comp_def]

lemma keys_of_events {last : Option Step} :
    ((eventsOf workflow stages last result).filterMap Event.settled?).map Prod.snd =
      (stages.flatMap Stage.calls).filterMap Call.settled? := by
  have hlast : Event.settled? (lastEvent workflow last result) = none := by cases result <;> rfl
  simp only [eventsOf, List.filterMap_append, List.filterMap_cons, hlast, List.filterMap_nil,
    List.append_nil, List.filterMap_flatMap, List.map_flatMap, keys_of_stage]

lemma lookupsInOrder (h : Staged owner (w.plan c) report stages result) {stage : Stage}
    (hstage : stage ∈ stages) : stage.calls.filterMap Call.lookedUp? <+: w.stepKeys stage.step := by
  obtain ⟨ws, report, result, hmem, hcourse⟩ := h.exists_course hstage
  rw [← stepKeys_of_mem_plan hmem]
  exact hcourse.inOrder.1

lemma attributed (h : Staged owner (w.plan c) report stages result) {step : Step} {key : ObjectKey}
    {last : Option Step}
    (hkey : (step, key) ∈ (eventsOf workflow stages last result).filterMap Event.settled?) :
    key ∈ w.stepKeys step := by
  have hlast : Event.settled? (lastEvent workflow last result) = none := by cases result <;> rfl
  rw [filterMap_events (fun _ => rfl) (told_settled workflow) hlast] at hkey
  obtain ⟨stage, hstage, hkey⟩ := List.mem_flatMap.mp hkey
  obtain ⟨call, hcall, hsettled⟩ := List.mem_filterMap.mp hkey
  obtain ⟨key', hkey', hpair⟩ := Option.map_eq_some_iff.mp hsettled
  cases hpair
  obtain ⟨ws, report, result, hmem, hcourse⟩ := h.exists_course hstage
  rw [← stepKeys_of_mem_plan hmem]
  exact hcourse.settled.1.subset (List.mem_filterMap.mpr ⟨call, hcall, hkey'⟩)

lemma finishes (h : Staged owner (w.plan c) report stages result) {earlier later : List Stage}
    {stage next : Stage} (hstages : stages = earlier ++ stage :: next :: later) :
    ((stage.events workflow).filterMap Event.settled?).map Prod.snd = w.stepKeys stage.step := by
  obtain ⟨ws, report, report', hmem, hfinished⟩ := h.finishesSteps hstages
  rw [keys_of_stage, hfinished.settled.2 ⟨report', rfl⟩, stepKeys_of_mem_plan hmem]

lemma stopsInLast {e : Error} (h : Staged owner (w.plan c) report stages (.error e)) :
    ∃ earlier stage before call, stages = earlier ++ [stage] ∧ stage.calls = before ++ [call] ∧
      call.stop? (w.unmakeable? c) = some e := by
  obtain ⟨earlier, stage, ws, report, hstages, hmem, hfailed⟩ := h.failsLast
  have hmake := unmakeable?_eq_some_iff c w
  obtain ⟨before, call, hsplit, hstop⟩ :=
    hfailed.stopsLast fun v hv => hmake v (mem_wanted_of_mem_plan hmem hv)
  exact ⟨earlier, stage, before, call, hstages, hsplit, hstop⟩

end Stages

/-- An observer of a pass sees exactly what the pass did, whatever a store answers: one message if the
workflow is refused, and otherwise the start of each step that is visited, one message for each object
that it settles, and at last the result with the step in which it arose. -/
theorem observer_sees_the_pass {σ : Type} (b : Backend σ) (s : σ) (c : Config) (desired : Workflow) :
    let calls := (desired.converge c).calls b s
    let ran := (desired.converge c).run b s
    (∀ e, desired.validate c = .error e →
      ran.events = [.failed desired.name none e] ∧ ran.result = .error e) ∧
    (∀ w, desired.validate c = .ok w → w.identity.uid = none →
      let e := (Violation.noUid w.name).toError
      ran.events = [.failed desired.name none e] ∧ ran.result = .error e) ∧
    ∀ w uid, desired.validate c = .ok w → w.identity.uid = some uid →
      ∃ stages, Observed c w calls ran.events ran.result stages := by
  intro calls ran
  refine ⟨fun e h => run_of_prepare_error b (prepare_of_validate_error h) s,
    fun w h hu => run_of_prepare_error b (prepare_of_no_uid h hu) s, fun w uid h hu => ?_⟩
  -- a validated workflow keeps its name, so all events are told under one
  have hname : desired.name = w.name := by
    rw [Workflow.name, Workflow.name, Workflow.identity_of_validate h]
  have hpass : desired.converge c =
      takeSteps w.name (w.ownerWith uid) (w.plan c) w.blankReport := by
    simp only [Workflow.converge, prepare_of_uid h hu, hname]
    rfl
  have hcourse : Course _ _ _ calls ran.result := course_converge b h hu s
  obtain ⟨stages, hstaged, hcalls, hevents⟩ :=
    exists_staged b (w.ownerWith uid) w.name (w.plan c) w.blankReport rfl s
  rw [← hpass] at hstaged hcalls hevents
  change Staged _ _ _ stages ran.result at hstaged
  change calls = _ at hcalls
  change ran.events = eventsOf w.name stages (stages.getLast?.map Stage.step) ran.result at hevents
  have hsteps := hstaged.stepsInOrder
  rw [steps_plan] at hsteps
  have hsettled := hcourse.settled
  rw [Workflow.keys_wanted] at hsettled
  have hkeys : (ran.events.filterMap Event.settled?).map Prod.snd = calls.filterMap Call.settled? := by
    rw [hevents, keys_of_events, hcalls]
  refine ⟨stages, {
    calls_eq := hcalls
    events_eq := hevents
    named := ?_
    endsOnce := ?_
    stepsInOrder := hsteps.1
    lookupsInOrder := fun stage => lookupsInOrder hstaged
    attributed := ?_
    onceForEachKey := hkeys ▸ hsettled.1
    created_iff := fun key => ?_
    raced_iff := fun key => ?_
    found_iff := fun key => ?_
    finishesSteps := fun _ _ _ _ => finishes hstaged
    succeeds := fun report hreport => ?_
    fails := fun e he => stopsInLast (he ▸ hstaged) }⟩
  · rw [hevents]
    refine fun event => workflow_of_mem_events fun report hreport => ?_
    rw [hcourse.reports hreport]
    rfl
  · rw [hevents]
    exact countP_isLast
  · rw [hevents]
    exact fun step key => attributed hstaged
  · rw [hevents, hcalls]
    exact exists_created_mem_iff
  · rw [hevents, exists_raced_mem_iff, ← hcalls]
    constructor
    · rintro ⟨r, e', hcall, rfl, he'⟩
      obtain ⟨e, hmiss, he⟩ := hcourse.missed_of_create hcall
      exact ⟨e, r, e', hmiss, he, hcall, rfl, he'⟩
    · rintro ⟨-, r, e', -, -, hcall, hkey, he'⟩
      exact ⟨r, e', hcall, hkey, he'⟩
  · rw [hevents, hcalls]
    exact exists_found_mem_iff
  · have hreports := hcourse.reports hreport
    refine ⟨hsteps.2 ⟨report, hreport⟩, hkeys.trans (hsettled.2 ⟨report, hreport⟩), ?_, ?_⟩
    · rw [hevents, created_of_events, hreports, hcalls]
      rfl
    · rw [hevents, present_of_events, hreports, hcalls]
      rfl

end Converging

end WorkflowOperator
