import WorkflowOperator.Proofs.Converge.Front
import WorkflowOperator.Proofs.Converge.Race

/-!
# How races end

The invariant of a race between passes toward one workflow, and what follows once all passes have
ended: each succeeded, each missing object was created once and by one pass, and the store is the one
that a single pass leaves.
-/

namespace WorkflowOperator

/-- Where a pass stands in the dependency order: it is about to look up the next object that is left,
or has looked it up in vain and is about to create it. -/
inductive Pass.At (owner : OwnerReference) (p : Pass (Outcome Report)) :
    List Wanted → Report → Prop
  | asking {left : List Wanted} {report : Report} (h : p.silent = settle owner left report) :
    At owner p left report
  | making {w : Wanted} {rest : List Wanted} {report : Report} {r : Resource}
    (hw : w.object = .ok r) (h : p.silent = creating owner w rest report r) :
    At owner p (w :: rest) report

/-- Whether a report tells of exactly the given wanted objects, each once and both lists in order. -/
structure Report.Tells (report blank : Report) (past : List Wanted) : Prop where
  workflow : report.workflow = blank.workflow
  inNamespace : report.inNamespace = blank.inNamespace
  created : report.created.Sublist (past.map Wanted.key)
  present : report.present.Sublist (past.map Wanted.key)
  perm : (report.created ++ report.present).Perm (past.map Wanted.key)

section Turns
variable (stamps : Nat → Stamp) {owner : OwnerReference}

/-- What a turn may come to: the pass stays where it stands and leaves the store alone, or it settles
the next object, which it finds or creates. -/
inductive Pass.Turned (owner : OwnerReference) (s : Store) (next : Pass (Outcome Report) × Store) :
    List Wanted → Report → Prop
  | waits {left : List Wanted} {report : Report} (hstore : next.2 = s)
    (hat : next.1.At owner left report) : Turned owner s next left report
  | finds {w : Wanted} {rest : List Wanted} {report : Report} (raced : Bool)
    (hs : s.contains w.key = true) (hstore : next.2 = s)
    (hat : next.1.At owner rest (report.add w.key (.present raced))) :
    Turned owner s next (w :: rest) report
  | creates {w : Wanted} {rest : List Wanted} {report : Report} {r : Resource}
    (hs : s.contains w.key = false) (hw : w.object = .ok r)
    (hstore : next.2 = s.put (stamps s.journal.length) (r.withOwner owner))
    (hat : next.1.At owner rest (report.add w.key .created)) :
    Turned owner s next (w :: rest) report

lemma turned_of_asking {p : Pass (Outcome Report)} {left : List Wanted} {report : Report}
    (h : p.silent = settle owner left report) (hmake : ∀ v ∈ left, ∃ r, v.object = .ok r)
    (s : Store) :
    Pass.Turned stamps owner s (p.turn (Store.backend stamps) s) left report := by
  cases p with
  | done a => exact .waits rfl (.asking h)
  | tell e p => exact .waits rfl (.asking h)
  | create r k =>
    cases left with
    | nil => simp [Pass.silent, settle] at h
    | cons w rest => simp [Pass.silent, settle_cons] at h
  | lookup key k =>
    cases left with
    | nil => simp [Pass.silent, settle] at h
    | cons w rest =>
      rw [settle_cons, Pass.silent, Pass.lookup.injEq] at h
      obtain ⟨rfl, hk⟩ := h
      by_cases hs : s.contains w.key = true
      · obtain ⟨r, hr⟩ := Store.lookup_of_contains hs
        refine .finds false hs rfl (.asking ?_)
        have hreply := congrFun hk (.ok r)
        simpa only [Pass.turn, Store.backend, hr] using hreply
      · rw [Bool.not_eq_true] at hs
        obtain ⟨r, hr⟩ := hmake w List.mem_cons_self
        refine .waits rfl (.making hr ?_)
        have hreply := congrFun hk (.error (.notFound w.key.kind w.key.name))
        simpa [Pass.turn, Store.backend, Store.lookup_of_not_contains hs, Error.isNotFound, hr]
          using hreply

lemma turned_of_making {p : Pass (Outcome Report)} {w : Wanted} {rest : List Wanted}
    {report : Report} {r : Resource} (hw : w.object = .ok r)
    (h : p.silent = creating owner w rest report r) (hkey : w.key.IsStorable) (s : Store) :
    Pass.Turned stamps owner s (p.turn (Store.backend stamps) s) (w :: rest) report := by
  cases p with
  | done a => simp [Pass.silent, creating] at h
  | lookup key k => simp [Pass.silent, creating] at h
  | tell e p => exact .waits rfl (.making hw h)
  | create r' k =>
    rw [creating, Pass.silent, Pass.create.injEq] at h
    obtain ⟨rfl, hk⟩ := h
    have hkey' : r.key.IsStorable := w.key_eq r hw ▸ hkey
    by_cases hs : s.contains w.key = true
    · have hrefuse := Store.refusal?_of_contains hkey' (w.key_eq r hw ▸ hs)
      have hcreate : (Store.backend stamps).create (r.withOwner owner) s =
          (.error (.alreadyExists r.key.kind r.key.name), s) := by
        simp [Store.backend, Store.create, hrefuse]
      refine .finds true hs ?_ (.asking ?_)
      · simp only [Pass.turn, hcreate]
      · have hreply := congrFun hk (.error (.alreadyExists r.key.kind r.key.name))
        simpa [Pass.turn, hcreate, Error.isAlreadyExists] using hreply
    · rw [Bool.not_eq_true] at hs
      have hcreate : (Store.backend stamps).create (r.withOwner owner) s = _ :=
        backend_create stamps (w.key_eq r hw ▸ hs) hkey'
      refine .creates hs hw ?_ (.asking ?_)
      · simp only [Pass.turn, hcreate]
      · have hreply := congrFun hk (.ok ((r.withOwner owner).stamped (stamps s.journal.length)))
        simpa only [Pass.turn, hcreate] using hreply

lemma turned_of_at {p : Pass (Outcome Report)} {left : List Wanted} {report : Report}
    (hat : p.At owner left report) (hkey : ∀ v ∈ left, v.key.IsStorable)
    (hmake : ∀ v ∈ left, ∃ r, v.object = .ok r) (s : Store) :
    Pass.Turned stamps owner s (p.turn (Store.backend stamps) s) left report := by
  cases hat with
  | asking h => exact turned_of_asking stamps h hmake s
  | making hw h => exact turned_of_making stamps hw h (hkey _ List.mem_cons_self) s

lemma tells_present {report blank : Report} {past : List Wanted} (h : report.Tells blank past)
    (w : Wanted) (raced : Bool) :
    (report.add w.key (.present raced)).Tells blank (past ++ [w]) where
  workflow := h.workflow
  inNamespace := h.inNamespace
  created := by
    rw [List.map_append]
    exact h.created.trans (List.sublist_append_left _ _)
  present := by
    rw [List.map_append]
    exact h.present.append (List.Sublist.refl _)
  perm := by
    rw [List.map_append, Report.add, ← List.append_assoc]
    exact h.perm.append_right _

lemma tells_created {report blank : Report} {past : List Wanted} (h : report.Tells blank past)
    (w : Wanted) : (report.add w.key .created).Tells blank (past ++ [w]) where
  workflow := h.workflow
  inNamespace := h.inNamespace
  created := by
    rw [List.map_append]
    exact h.created.append (List.Sublist.refl _)
  present := by
    rw [List.map_append]
    exact h.present.trans (List.sublist_append_left _ _)
  perm := by
    rw [List.map_append, Report.add, List.append_assoc]
    refine (List.Perm.append_left _ List.perm_append_comm).trans ?_
    rw [← List.append_assoc]
    exact h.perm.append_right _

end Turns

/-! ### The invariant of a race -/

section Racing
variable (stamps : Nat → Stamp) (owner : OwnerReference) (blank : Report) (ws : List Wanted)
  (s₀ : Store)

def Progress (s : Store) (p : Pass (Outcome Report)) (report : Report) : Prop :=
  ∃ past left, ws = past ++ left ∧ p.At owner left report ∧
    (∀ v ∈ past, s.contains v.key = true) ∧ report.Tells blank past

/-- The state of a race: the store has gained what it lacked of the first wanted objects, and the
reports so far tell of each creation once. -/
structure Race.Inv (race : Race) (reports : List Report) (front : List Wanted) : Prop where
  isFront : front <+: ws
  store : race.store = s₀.putAll stamps (madeFor owner (s₀.lacking front))
  passes : List.Forall₂ (Progress owner blank ws race.store) race.passes reports
  created : (reports.flatMap Report.created).Perm ((s₀.lacking front).map Wanted.key)

variable {stamps owner blank ws s₀}

lemma progress_mono {s s' : Store} (h : ∀ key, s.contains key = true → s'.contains key = true)
    {p : Pass (Outcome Report)} {report : Report} (hp : Progress owner blank ws s p report) :
    Progress owner blank ws s' p report := by
  obtain ⟨past, left, hws, hat, hpast, htells⟩ := hp
  exact ⟨past, left, hws, hat, fun v hv => h _ (hpast v hv), htells⟩

lemma forall₂_set {α β : Type} {R S : α → β → Prop} {as : List α} {bs : List β}
    (h : List.Forall₂ R as bs) (himp : ∀ a b, R a b → S a b) (i : Nat) {a : α} {b : β}
    (hab : S a b) : List.Forall₂ S (as.set i a) (bs.set i b) := by
  induction h generalizing i with
  | nil => exact .nil
  | @cons a' b' as bs hr hrest ih =>
    cases i with
    | zero => exact .cons hab (hrest.imp himp)
    | succ i => exact .cons (himp _ _ hr) (ih i)

lemma exists_getElem?_of_forall₂ {α β : Type} {R : α → β → Prop} {as : List α} {bs : List β}
    (h : List.Forall₂ R as bs) {i : Nat} {a : α} (ha : as[i]? = some a) :
    ∃ b, bs[i]? = some b ∧ R a b := by
  induction h generalizing i with
  | nil => simp at ha
  | @cons a' b' as bs hr _ ih =>
    cases i with
    | zero =>
      rw [List.getElem?_cons_zero, Option.some.injEq] at ha
      exact ⟨b', rfl, ha ▸ hr⟩
    | succ i => exact ih ha

lemma set_of_getElem? {α : Type} {as : List α} {i : Nat} {a : α} (h : as[i]? = some a) :
    as.set i a = as := by
  obtain ⟨hi, rfl⟩ := List.getElem?_eq_some_iff.mp h
  exact List.set_getElem_self hi

lemma flatMap_set_perm {α β : Type} (f : α → List β) {as : List α} {i : Nat} {a a' : α}
    {more : List β} (h : as[i]? = some a) (hf : f a' = f a ++ more) :
    ((as.set i a').flatMap f).Perm (as.flatMap f ++ more) := by
  induction as generalizing i with
  | nil => simp at h
  | cons b rest ih =>
    cases i with
    | zero =>
      rw [List.getElem?_cons_zero, Option.some.injEq] at h
      subst h
      rw [List.set_cons_zero, List.flatMap_cons, List.flatMap_cons, hf, List.append_assoc,
        List.append_assoc]
      exact List.Perm.append_left _ List.perm_append_comm
    | succ i =>
      rw [List.set_cons_succ, List.flatMap_cons, List.flatMap_cons, List.append_assoc]
      exact List.Perm.append_left _ (ih h)

section Turning
variable {race : Race} {reports : List Report} {front past rest : List Wanted} {w : Wanted}
  {report : Report} {i : Nat} {next : Pass (Outcome Report) × Store}
  (h : Race.Inv stamps owner blank ws s₀ race reports front) (hreport : reports[i]? = some report)
include h hreport

lemma inv_of_waits (hstore : next.2 = race.store)
    (hprogress : Progress owner blank ws race.store next.1 report) :
    Race.Inv stamps owner blank ws s₀ ⟨race.passes.set i next.1, next.2⟩ reports front where
  isFront := h.isFront
  store := hstore.trans h.store
  passes := by
    have hset := forall₂_set h.passes (fun _ _ hab => hab) i hprogress
    rw [set_of_getElem? hreport] at hset
    simpa only [hstore] using hset
  created := h.created

variable (hws : ws = past ++ w :: rest) (hpast : ∀ v ∈ past, race.store.contains v.key = true)
  (htells : report.Tells blank past)
include hws hpast htells

/-- What is found was there when the race began, or is in the report of the pass that created it. -/
lemma inv_of_finds {raced : Bool} (hs : race.store.contains w.key = true)
    (hstore : next.2 = race.store)
    (hat : next.1.At owner rest (report.add w.key (.present raced))) :
    Race.Inv stamps owner blank ws s₀ ⟨race.passes.set i next.1, next.2⟩
      (reports.set i (report.add w.key (.present raced))) front where
  isFront := h.isFront
  store := hstore.trans h.store
  passes := by
    have hthere : ∀ v ∈ past ++ [w], race.store.contains v.key = true := by
      intro v hv
      rcases List.mem_append.mp hv with hv | hv
      · exact hpast v hv
      · rwa [List.mem_singleton.mp hv]
    simp only [hstore]
    exact forall₂_set h.passes (fun _ _ hab => hab) i
      ⟨past ++ [w], rest, hws.trans (List.append_cons _ _ _), hat, hthere, tells_present htells w raced⟩
  created := by
    have hadd : (report.add w.key (.present raced)).created = report.created ++ [] :=
      (List.append_nil _).symm
    have hperm := flatMap_set_perm Report.created hreport hadd
    rw [List.append_nil] at hperm
    exact hperm.trans h.created

/-- What is created is the first object that the front lacks, so the front moves up to it. -/
lemma inv_of_creates (hnodup : (ws.map Wanted.key).Nodup)
    (hmake : ∀ v ∈ ws, ∃ r, v.object = .ok r) {r : Resource}
    (hs : race.store.contains w.key = false) (hr : w.object = .ok r)
    (hstore : next.2 = race.store.put (stamps race.store.journal.length) (r.withOwner owner))
    (hat : next.1.At owner rest (report.add w.key .created)) :
    Race.Inv stamps owner blank ws s₀ ⟨race.passes.set i next.1, next.2⟩
      (reports.set i (report.add w.key .created)) (past ++ [w]) := by
  have hws' : ws = (past ++ [w]) ++ rest := hws.trans (List.append_cons _ _ _)
  have hpastw : past ++ [w] <+: ws := ⟨rest, hws'.symm⟩
  have hlack : s₀.lacking (past ++ [w]) = s₀.lacking front ++ [w] := by
    rw [h.store] at hs hpast
    exact lacking_concat hnodup hmake h.isFront hpastw hpast hs
  have hstore' : next.2 = s₀.putAll stamps (madeFor owner (s₀.lacking (past ++ [w]))) := by
    rw [hstore, hlack, madeFor_append, madeFor_singleton hr, Store.putAll_append, ← h.store]
    rfl
  have hmono : ∀ key, race.store.contains key = true → next.2.contains key = true := by
    intro key hkey
    rw [hstore, Store.contains_put]
    exact Or.inr hkey
  refine ⟨hpastw, hstore', ?_, ?_⟩
  · refine forall₂_set h.passes (fun _ _ hab => progress_mono hmono hab) i
      ⟨past ++ [w], rest, hws', hat, ?_, tells_created htells w⟩
    intro v hv
    rw [hstore']
    exact contains_of_mem_front hmake hpastw hv
  · have hperm := flatMap_set_perm Report.created hreport
      (rfl : (report.add w.key .created).created = report.created ++ [w.key])
    rw [hlack, List.map_append]
    exact hperm.trans (h.created.append_right _)

end Turning

/-- One turn keeps the invariant of a race. -/
lemma inv_turn (hnodup : (ws.map Wanted.key).Nodup) (hkey : ∀ v ∈ ws, v.key.IsStorable)
    (hmake : ∀ v ∈ ws, ∃ r, v.object = .ok r) {race : Race} {reports : List Report}
    {front : List Wanted} (h : Race.Inv stamps owner blank ws s₀ race reports front) (i : Nat) :
    ∃ reports' front', Race.Inv stamps owner blank ws s₀ (race.turn stamps i) reports' front' := by
  unfold Race.turn
  cases hp : race.passes[i]? with
  | none => exact ⟨reports, front, h⟩
  | some p =>
    obtain ⟨report, hreport, past, left, hws, hat, hpast, htells⟩ :=
      exists_getElem?_of_forall₂ h.passes hp
    have hleft : ∀ v ∈ left, v ∈ ws := fun v hv => hws ▸ List.mem_append_right past hv
    cases turned_of_at stamps hat (fun v hv => hkey v (hleft v hv))
      (fun v hv => hmake v (hleft v hv)) race.store with
    | waits hstore hat =>
      exact ⟨_, _, inv_of_waits h hreport hstore ⟨past, left, hws, hat, hpast, htells⟩⟩
    | finds raced hs hstore hat =>
      exact ⟨_, _, inv_of_finds h hreport hws hpast htells hs hstore hat⟩
    | creates hs hr hstore hat =>
      exact ⟨_, _, inv_of_creates h hreport hws hpast htells hnodup hmake hs hr hstore hat⟩

lemma inv_run (hnodup : (ws.map Wanted.key).Nodup) (hkey : ∀ v ∈ ws, v.key.IsStorable)
    (hmake : ∀ v ∈ ws, ∃ r, v.object = .ok r) {race : Race} {reports : List Report}
    {front : List Wanted} (h : Race.Inv stamps owner blank ws s₀ race reports front)
    (schedule : List Nat) :
    ∃ reports' front', Race.Inv stamps owner blank ws s₀ (race.run stamps schedule) reports' front' := by
  induction schedule generalizing race reports front with
  | nil => exact ⟨reports, front, h⟩
  | cons i rest ih =>
    obtain ⟨reports', front', h'⟩ := inv_turn hnodup hkey hmake h i
    exact ih h'

end Racing

/-! ### Passes toward one workflow -/

section Converging
variable (stamps : Nat → Stamp) {c : Config} {desired w : Workflow} {uid : String}
  {files : TextMap String}

/-- What the reports of passes toward one workflow say together: each tells of every object of the
workflow, and each object that was missing is the creation of exactly one pass. -/
structure ReportedOnce (w : Workflow) (s : Store) (reports : List Report) : Prop where
  named : ∀ report ∈ reports, report.workflow = w.name ∧ report.inNamespace = w.inNamespace
  complete : ∀ report ∈ reports, (report.created ++ report.present).Perm w.dependencyOrder
  inOrder : ∀ report ∈ reports, report.created.Sublist w.dependencyOrder ∧
    report.present.Sublist w.dependencyOrder
  presentBefore : ∀ report ∈ reports, ∀ key, s.contains key = true → key ∉ report.created
  createdOnce : ∀ key ∈ w.dependencyOrder, s.contains key = false →
    ∃ i, ∃ hi : i < reports.length, key ∈ reports[i].created ∧ key ∉ reports[i].present ∧
      ∀ j, ∀ hj : j < reports.length, j ≠ i → key ∉ reports[j].created ∧ key ∈ reports[j].present

lemma tells_nil (blank : Report) (hcreated : blank.created = []) (hpresent : blank.present = []) :
    blank.Tells blank [] := by
  constructor <;> simp [hcreated, hpresent]

lemma inv_start (h : desired.validate c = .ok w) (hu : w.identity.uid = some uid) (count : Nat)
    (s : Store) :
    Race.Inv stamps (w.ownerWith uid) w.blankReport (w.wanted c) s
      (Race.start c desired count s) (List.replicate count w.blankReport) [] where
  isFront := List.nil_prefix
  store := rfl
  passes := by
    have hprogress : Progress (w.ownerWith uid) w.blankReport (w.wanted c) s
        (desired.converge c) w.blankReport :=
      ⟨[], w.wanted c, rfl, .asking (silent_converge h hu), by simp, tells_nil _ rfl rfl⟩
    induction count with
    | zero => exact .nil
    | succ count ih => exact .cons hprogress ih
  created := by
    rw [List.flatMap_replicate]
    simp [Workflow.blankReport, Store.lacking]

lemma settled_of_done {owner : OwnerReference} {left : List Wanted} {report : Report}
    {outcome : Outcome Report} (h : (Pass.done outcome).At owner left report) :
    left = [] ∧ outcome = .ok report := by
  cases h with
  | asking h =>
    cases left with
    | nil =>
      rw [settle, Pass.silent, Pass.done.injEq] at h
      exact ⟨rfl, h⟩
    | cons w rest => simp [Pass.silent, settle_cons] at h
  | making hw h => simp [Pass.silent, creating] at h

lemma tells_of_done {owner : OwnerReference} {blank report : Report} {ws : List Wanted} {s : Store}
    {outcome : Outcome Report} (h : Progress owner blank ws s (.done outcome) report) :
    outcome = .ok report ∧ report.Tells blank ws ∧ ∀ v ∈ ws, s.contains v.key = true := by
  obtain ⟨past, left, rfl, hat, hpast, htells⟩ := h
  obtain ⟨rfl, hout⟩ := settled_of_done hat
  rw [List.append_nil]
  exact ⟨hout, htells, hpast⟩

lemma ended_of_forall₂ {owner : OwnerReference} {blank : Report} {ws : List Wanted} {s : Store}
    {passes : List (Pass (Outcome Report))} {reports : List Report}
    (h : List.Forall₂ (Progress owner blank ws s) passes reports)
    (hended : ∀ p ∈ passes, p.HasEnded) :
    passes = reports.map (fun report => .done (.ok report)) ∧
      ∀ report ∈ reports, report.Tells blank ws ∧ ∀ v ∈ ws, s.contains v.key = true := by
  induction h with
  | nil => simp
  | @cons p report passes reports hp _ ih =>
    obtain ⟨outcome, rfl⟩ := hended p List.mem_cons_self
    obtain ⟨rfl, htells⟩ := tells_of_done hp
    obtain ⟨rfl, hrest⟩ := ih fun q hq => hended q (List.mem_cons_of_mem _ hq)
    refine ⟨rfl, fun r hr => ?_⟩
    rcases List.mem_cons.mp hr with rfl | hr
    · exact htells
    · exact hrest r hr

lemma reportedOnce {reports : List Report} {s : Store}
    (htells : ∀ report ∈ reports, report.Tells w.blankReport (w.wanted c))
    (hcreated : (reports.flatMap Report.created).Perm
      (w.dependencyOrder.filter fun key => !s.contains key)) :
    ReportedOnce w s reports := by
  have hnodup : (reports.flatMap Report.created).Nodup :=
    hcreated.nodup_iff.mpr (w.nodup_dependencyOrder.filter _)
  have hcomplete : ∀ report ∈ reports,
      (report.created ++ report.present).Perm w.dependencyOrder := by
    intro report hr
    rw [← Workflow.keys_wanted c w]
    exact (htells report hr).perm
  refine ⟨fun report hr => ⟨(htells report hr).workflow, (htells report hr).inNamespace⟩, hcomplete,
    ?_, ?_, ?_⟩
  · intro report hr
    rw [← Workflow.keys_wanted c w]
    exact ⟨(htells report hr).created, (htells report hr).present⟩
  · intro report hr key hs hmem
    have hkey := hcreated.mem_iff.mp (List.mem_flatMap.mpr ⟨report, hr, hmem⟩)
    simp [hs] at hkey
  · intro key hkey hs
    have hmem : key ∈ reports.flatMap Report.created :=
      hcreated.mem_iff.mpr (List.mem_filter.mpr ⟨hkey, by simp [hs]⟩)
    obtain ⟨report, hr, hmade⟩ := List.mem_flatMap.mp hmem
    obtain ⟨i, hi, rfl⟩ := List.mem_iff_getElem.mp hr
    have hown := (hcomplete _ hr).nodup_iff.mpr w.nodup_dependencyOrder
    refine ⟨i, hi, hmade, fun hp => (List.nodup_append.mp hown).2.2 _ hmade _ hp rfl, ?_⟩
    intro j hj hji
    have hdisjoint : ∀ i j (hi : i < reports.length) (hj : j < reports.length), i < j →
        List.Disjoint reports[i].created reports[j].created :=
      List.pairwise_iff_getElem.mp (List.nodup_flatMap.mp hnodup).2
    have hnot : key ∉ reports[j].created := by
      rcases Nat.lt_or_gt_of_ne hji with hlt | hlt
      · exact fun hmem => hdisjoint j i hj hi hlt hmem hmade
      · exact fun hmem => hdisjoint i j hi hj hlt hmade hmem
    refine ⟨hnot, ?_⟩
    have hboth := (hcomplete reports[j] (List.getElem_mem hj)).mem_iff.mpr hkey
    exact (List.mem_append.mp hboth).resolve_left hnot

/-- Once some pass has settled all that is wanted, the race has created all that was missing. -/
lemma store_of_settled (hfiles : w.managerFiles c = .ok files) {race : Race} {reports : List Report}
    {front : List Wanted} {s : Store}
    (hinv : Race.Inv stamps (w.ownerWith uid) w.blankReport (w.wanted c) s race reports front)
    (hthere : ∀ v ∈ w.wanted c, race.store.contains v.key = true) :
    race.store = s.putAll stamps (s.newFor (w.ownerWith uid) (w.objectsWith c files)) ∧
      (reports.flatMap Report.created).Perm
        (w.dependencyOrder.filter fun key => !s.contains key) := by
  rw [hinv.store] at hthere
  have hall : s.lacking front = s.lacking (w.wanted c) :=
    lacking_front (nodup_wanted c w) (makeable_wanted hfiles) hinv.isFront hthere
  have hreal := realizes_wanted (s := s) (w := w) fun _ => hfiles
  have hcreated := hinv.created
  rw [hall, keys_lacking, Workflow.keys_wanted] at hcreated
  refine ⟨?_, hcreated⟩
  rw [hinv.store, hall, madeFor_lacking hreal]

lemma hasEnded_of_count (c : Config) (desired : Workflow) (count : Nat) (s : Store)
    {schedule : List Nat} {i : Nat} {p : Pass (Outcome Report)} (hcount : 32 ≤ schedule.count i)
    (hp : ((Race.start c desired count s).run stamps schedule).passes[i]? = some p) :
    p.HasEnded := by
  have hstart : ∀ q, (Race.start c desired count s).passes[i]? = some q → q.EndsWithin 32 := by
    intro q hq
    rw [List.eq_of_mem_replicate (List.mem_of_getElem? hq)]
    exact endsWithin_converge c desired
  have hbound := endsWithin_run stamps _ schedule 32 i hstart p hp
  rw [Nat.sub_eq_zero_of_le hcount] at hbound
  exact hasEnded_of_endsWithin_zero hbound

/-- However the turns of passes toward one workflow are interleaved, nothing that is in the store at
some moment changes later, every pass that ends succeeds, and a pass ends when it has had enough
turns. Once all have ended, each missing object has been created once and by one pass, and the store
is up to stamps the one that a single pass leaves. -/
theorem racing_passes_converge_once (h : desired.validate c = .ok w)
    (hu : w.identity.uid = some uid) (hfiles : w.managerFiles c = .ok files) (s : Store)
    (count : Nat) (schedule : List Nat) :
    let start := Race.start c desired count s
    let race := start.run stamps schedule
    (∀ later key r, race.store.objects.get? key = some r →
      (start.run stamps (schedule ++ later)).store.objects.get? key = some r) ∧
    (∀ outcome, .done outcome ∈ race.passes → ∃ report, outcome = .ok report) ∧
    ((∀ i < count, 32 ≤ schedule.count i) → ∀ p ∈ race.passes, p.HasEnded) ∧
    (0 < count → (∀ p ∈ race.passes, p.HasEnded) →
      let made := s.newFor (w.ownerWith uid) (w.objectsWith c files)
      (∃ reports, reports.length = count ∧
        race.passes = reports.map (fun report => .done (.ok report)) ∧ ReportedOnce w s reports) ∧
      made.map Resource.key = w.dependencyOrder.filter (fun key => !s.contains key) ∧
      Store.Gained stamps s race.store made ∧
      race.store = (s.converge stamps c desired).state ∧
      ∀ stamps', race.store.AgreesUpToStamps (s.converge stamps' c desired).state) := by
  intro start race
  have hmake := makeable_wanted (w := w) hfiles
  obtain ⟨reports, front, hinv⟩ := inv_run (nodup_wanted c w) (storable_wanted h) hmake
    (inv_start stamps h hu count s) schedule
  have hpasses : List.Forall₂ _ race.passes reports := hinv.passes
  have hlength : race.passes.length = count :=
    (length_run stamps start schedule).trans List.length_replicate
  refine ⟨?_, ?_, ?_, ?_⟩
  · intro later key r hr
    have happend : start.run stamps (schedule ++ later) = race.run stamps later :=
      List.foldl_append
    rw [happend]
    exact race_run_keeps stamps race later r key hr
  · intro outcome hmem
    obtain ⟨i, hi, hp⟩ := List.mem_iff_getElem.mp hmem
    obtain ⟨report, _, hprogress⟩ :=
      exists_getElem?_of_forall₂ hpasses (List.getElem?_eq_some_iff.mpr ⟨hi, hp⟩)
    exact ⟨report, (tells_of_done hprogress).1⟩
  · intro hcount p hmem
    obtain ⟨i, hi, hp⟩ := List.mem_iff_getElem.mp hmem
    exact hasEnded_of_count stamps c desired count s (hcount i (hlength ▸ hi))
      (List.getElem?_eq_some_iff.mpr ⟨hi, hp⟩)
  · intro hpos hended made
    obtain ⟨hdone, htells⟩ := ended_of_forall₂ hpasses hended
    have hreports : reports.length = count := by rw [← hlength, hpasses.length_eq]
    -- One pass that has ended has seen everything there, so the front is the end.
    obtain ⟨first, hfirst⟩ : ∃ first, first ∈ reports :=
      List.exists_mem_of_length_pos (by omega)
    obtain ⟨hstore, hcreated⟩ : race.store = s.putAll stamps made ∧ _ :=
      store_of_settled stamps hfiles hinv (htells first hfirst).2
    exact ⟨⟨reports, hreports, hdone, reportedOnce (fun r hr => (htells r hr).1) hcreated⟩,
      keys_newFor_objectsWith s _ c w files,
      hstore ▸ gained_newFor_objectsWith s _ c w files stamps,
      agrees_with_pass stamps h hu hfiles hstore⟩

end Converging

/-- Two passes that take turns, from an empty store. -/
theorem alternating_passes_converge_once :
    let desired := Workflow.stageless "training" "lab" "1f0a"
    let race := (Race.start .standard desired 2 .empty).run Stamp.numbered
      (List.replicate 32 [0, 1]).flatten
    ∃ reports : List Report, reports.length = 2 ∧
      race.passes = reports.map (fun report => .done (.ok report)) ∧
      ReportedOnce (desired.withDefaults .standard) .empty reports := by
  obtain ⟨files, hfiles⟩ := files_lab
  obtain ⟨-, -, hends, honce⟩ := racing_passes_converge_once Stamp.numbered validate_lab rfl
    hfiles .empty 2 (List.replicate 32 [0, 1]).flatten
  have hturns : ∀ i < 2, 32 ≤ (List.replicate 32 [0, 1]).flatten.count i := by decide
  exact (honce (by decide) (hends hturns)).1

end WorkflowOperator
