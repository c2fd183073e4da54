import WorkflowOperator.Converge.Run
import WorkflowOperator.Proofs.Latest
import WorkflowOperator.Proofs.Store.Answers
import WorkflowOperator.Proofs.Store.Ownership

/-!
# The history of a store

A store may be asked to create, look up, delete and collect objects, one request after the other and in
any order. Its answers account for all that it holds: each object is what the latest creation at its key
answered, the journal tells the creations in order, and a creation that is refused leaves no trace.
-/

namespace WorkflowOperator.Store

/-- Something that a store is asked to do. -/
inductive Request
  | create (r : Resource)
  | lookup (key : ObjectKey)
  | delete (key : ObjectKey)
  | collect (uid : String)

/-- A request with the answer to it. -/
inductive Exchange
  | create (r : Resource) (answer : Outcome Resource)
  | lookup (key : ObjectKey) (answer : Outcome Resource)
  | delete (key : ObjectKey) (wasThere : Bool)
  | collect (uid : String) (removed : List ObjectKey)

namespace Exchange

def made? : Exchange → Option Resource
  | .create _ (.ok r) => some r
  | _ => none

/-- Whether an exchange puts an object at a key or takes away the one that is there. -/
def Changes (key : ObjectKey) : Exchange → Prop
  | .create _ (.ok r) => r.key = key
  | .create _ (.error _) => False
  | .lookup _ _ => False
  | .delete key' _ => key' = key
  | .collect _ removed => key ∈ removed

end Exchange

/-- Whether an object was created at a key and nothing has changed there since. -/
def Stands (history : List Exchange) (key : ObjectKey) (r : Resource) : Prop :=
  ∃ before x after, history = before ++ x :: after ∧ x.made? = some r ∧ r.key = key ∧
    ∀ y ∈ after, ¬ y.Changes key

/-- Whether an entry of a journal tells the creation of an object. -/
def Tells (entry : JournalEntry) (r : Resource) : Prop :=
  entry.key = r.key ∧ r.metadata.uid = some entry.stamp.uid ∧
    r.metadata.created = some entry.stamp.time

section
variable (stamps : Nat → Stamp)

def exchange (s : Store) : Request → Exchange × Store
  | .create r => let (answer, s') := (backend stamps).create r s; (.create r answer, s')
  | .lookup key => let (answer, s') := (backend stamps).lookup key s; (.lookup key answer, s')
  | .delete key => let (wasThere, s') := s.delete key; (.delete key wasThere, s')
  | .collect uid => let (removed, s') := s.collect uid; (.collect uid removed, s')

def exchanges : List Request → Store → List Exchange
  | [], _ => []
  | q :: rest, s => (s.exchange stamps q).1 :: exchanges rest (s.exchange stamps q).2

def afterRequests : List Request → Store → Store
  | [], s => s
  | q :: rest, s => afterRequests rest (s.exchange stamps q).2

end

/-! ### Histories -/

variable {history : List Exchange} {x : Exchange} {key : ObjectKey} {r : Resource}

lemma Exchange.exists_of_made? (h : x.made? = some r) : ∃ given, x = .create given (.ok r) := by
  cases x with
  | create given answer =>
    cases answer with
    | ok made =>
      cases h
      exact ⟨given, rfl⟩
    | error e => cases h
  | lookup key answer => cases h
  | delete key wasThere => cases h
  | collect uid removed => cases h

lemma Exchange.changes_of_made? (h : x.made? = some r) : x.Changes key ↔ r.key = key := by
  obtain ⟨given, rfl⟩ := exists_of_made? h
  exact Iff.rfl

lemma stands_iff_exists_isLatest : Stands history key r ↔
    ∃ x, IsLatest (Exchange.Changes key) history x ∧ x.made? = some r ∧ r.key = key := by
  constructor
  · rintro ⟨before, x, after, hsplit, hmade, hkey, hafter⟩
    exact ⟨x, ⟨before, after, hsplit, hafter⟩, hmade, hkey⟩
  · rintro ⟨x, ⟨before, after, hsplit, hafter⟩, hmade, hkey⟩
    exact ⟨before, x, after, hsplit, hmade, hkey, hafter⟩

lemma not_stands_nil : ¬ Stands [] key r := by
  rw [stands_iff_exists_isLatest]
  rintro ⟨x, hlatest, -⟩
  exact not_isLatest_nil hlatest

lemma stands_concat_iff : Stands (history ++ [x]) key r ↔
    (x.made? = some r ∧ r.key = key) ∨ (Stands history key r ∧ ¬ x.Changes key) := by
  simp only [stands_iff_exists_isLatest, isLatest_concat_iff, or_and_right, exists_or, exists_eq_left,
    ← exists_and_right]
  exact or_congr_right (exists_congr fun _ => and_right_comm)

/-- What a store holds comes from its history: what it has at each key, its journal with the stamps in
order, and the objects that were given to it. -/
structure Traced (stamps : Nat → Stamp) (history : List Exchange) (s : Store) : Prop where
  stands : ∀ key r, s.objects.get? key = some r ↔ Stands history key r
  tells : List.Forall₂ Tells s.journal (history.filterMap Exchange.made?)
  stamps : s.journal.map JournalEntry.stamp = (List.range s.journal.length).map stamps
  given : ∀ x ∈ history, ∀ r, x.made? = some r → r.key.IsStorable ∧
    ∃ given stamp, x = .create given (.ok r) ∧ r = given.stamped stamp

lemma traced_empty (stamps : Nat → Stamp) : Traced stamps [] .empty where
  stands := fun key r => by simp [empty, not_stands_nil]
  tells := .nil
  stamps := rfl
  given := by simp

variable {stamps : Nat → Stamp} {s : Store}

/-- An exchange that creates nothing keeps the trace if it takes away just what it says. -/
lemma Traced.concat (h : Traced stamps history s) (hmade : x.made? = none) {s' : Store}
    (hobjects : ∀ key r, s'.objects.get? key = some r ↔ s.objects.get? key = some r ∧ ¬ x.Changes key)
    (hjournal : s'.journal = s.journal) : Traced stamps (history ++ [x]) s' where
  stands := fun key r => by
    rw [hobjects, h.stands, stands_concat_iff, hmade]
    simp
  tells := by
    rw [hjournal, List.filterMap_append, List.filterMap_cons, hmade]
    simpa using h.tells
  stamps := by rw [hjournal, h.stamps]
  given := by
    rw [List.forall_mem_append, List.forall_mem_singleton, hmade]
    exact ⟨h.given, fun r hr => absurd hr (by simp)⟩

lemma Traced.put (h : Traced stamps history s) (hkey : r.key.IsStorable) :
    Traced stamps (history ++ [.create r (.ok (r.stamped (stamps s.journal.length)))])
      (s.put (stamps s.journal.length) r) where
  stands := by
    intro key r'
    rw [stands_concat_iff]
    by_cases hsame : key = r.key
    · subst hsame
      rw [get?_put_self]
      simp only [Exchange.made?, Exchange.Changes, Resource.key_stamped, not_true_eq_false, and_false,
        or_false]
      constructor
      · intro hr'
        cases hr'
        exact ⟨rfl, rfl⟩
      · exact fun hr' => hr'.1
    · rw [get?_put_of_ne s _ hsame, h.stands]
      have hother : ¬ (Exchange.create r (.ok (r.stamped (stamps s.journal.length)))).Changes key :=
        fun hchanges => hsame hchanges.symm
      refine ⟨fun hstands => Or.inr ⟨hstands, hother⟩, ?_⟩
      rintro (⟨hmade, rfl⟩ | hstands)
      · cases hmade
        exact absurd rfl hsame
      · exact hstands.1
  tells := by
    rw [List.filterMap_append]
    exact List.rel_append h.tells (.cons ⟨rfl, rfl, rfl⟩ .nil)
  stamps := by
    change (s.journal ++ [_]).map _ = (List.range (s.journal ++ [_]).length).map _
    rw [List.map_append, h.stamps, List.length_append, List.length_singleton, List.range_succ,
      List.map_append]
    rfl
  given := by
    rw [List.forall_mem_append, List.forall_mem_singleton]
    refine ⟨h.given, fun r' hr' => ?_⟩
    cases hr'
    exact ⟨hkey, r, _, rfl, rfl⟩

lemma exchange_create (stamps : Nat → Stamp) (s : Store) (r : Resource) :
    ((¬ r.key.IsStorable ∨ s.contains r.key = true) ∧
      ∃ e, s.exchange stamps (.create r) = (.create r (.error e), s)) ∨
    ((r.key.IsStorable ∧ s.contains r.key = false) ∧ s.exchange stamps (.create r) =
      (.create r (.ok (r.stamped (stamps s.journal.length))), s.put (stamps s.journal.length) r)) := by
  cases hrefuse : s.refusal? r.key with
  | some e =>
    refine Or.inl ⟨?_, e, by simp [exchange, backend, create, hrefuse]⟩
    by_contra hfit
    rw [not_or, not_not, Bool.not_eq_true] at hfit
    rw [refusal?_eq_none_iff.mpr hfit] at hrefuse
    cases hrefuse
  | none =>
    exact Or.inr ⟨refusal?_eq_none_iff.mp hrefuse, by simp [exchange, backend, create, hrefuse]⟩

lemma exists_refusal_iff (stamps : Nat → Stamp) (s : Store) (r : Resource) :
    (∃ e, (s.exchange stamps (.create r)).1 = .create r (.error e)) ↔
      ¬ r.key.IsStorable ∨ s.contains r.key = true := by
  rcases exchange_create stamps s r with ⟨hunfit, e, hrefused⟩ | ⟨hfit, hmade⟩
  · exact iff_of_true ⟨e, by rw [hrefused]⟩ hunfit
  · refine iff_of_false ?_ (by rw [not_or, not_not, Bool.not_eq_true]; exact hfit)
    rintro ⟨e, he⟩
    rw [hmade] at he
    cases he

lemma exchange_of_refusal {e : Error} (h : (s.exchange stamps (.create r)).1 = .create r (.error e)) :
    (s.exchange stamps (.create r)).2 = s := by
  rcases exchange_create stamps s r with ⟨-, e', hrefused⟩ | ⟨-, hmade⟩
  · rw [hrefused]
  · rw [hmade] at h
    cases h

lemma exists_more (stamps : Nat → Stamp) (s : Store) (q : Request) :
    ∃ more, (s.exchange stamps q).2.journal = s.journal ++ more ∧
      List.Forall₂ Tells more (s.exchange stamps q).1.made?.toList := by
  have hsame : ∀ journal : List JournalEntry, ∃ more, journal = journal ++ more ∧
      List.Forall₂ Tells more [] := fun journal => ⟨[], (List.append_nil _).symm, .nil⟩
  cases q with
  | create r =>
    rcases exchange_create stamps s r with ⟨-, e, hrefused⟩ | ⟨-, hmade⟩
    · rw [hrefused]
      exact hsame _
    · rw [hmade]
      exact ⟨[⟨r.key, stamps s.journal.length⟩], rfl, .cons ⟨rfl, rfl, rfl⟩ .nil⟩
  | lookup key => exact hsame _
  | delete key => exact hsame _
  | collect uid => exact hsame _

/-- Whatever a store is asked, its answer carries on its trace. -/
lemma Traced.exchange (h : Traced stamps history s) (q : Request) :
    Traced stamps (history ++ [(s.exchange stamps q).1]) (s.exchange stamps q).2 := by
  cases q with
  | create r =>
    rcases exchange_create stamps s r with ⟨-, e, hrefused⟩ | ⟨⟨hkey, -⟩, hmade⟩
    · rw [hrefused]
      exact h.concat rfl (by simp [Exchange.Changes]) rfl
    · rw [hmade]
      exact h.put hkey
  | lookup key => exact h.concat rfl (by simp [Store.exchange, backend, Exchange.Changes]) rfl
  | delete key =>
    refine h.concat rfl (fun key' r => ?_) rfl
    change (s.objects.erase key).get? key' = some r ↔ _
    rw [SortedMap.erase, SortedMap.get?_filter, Option.filter_eq_some_iff]
    simp [Exchange.Changes, Store.exchange, delete, Std.LawfulEqCmp.compare_eq_iff_eq]
  | collect uid =>
    refine h.concat rfl (fun key r => ?_) rfl
    change (s.collect uid).2.objects.get? key = some r ↔ _ ∧ key ∉ (s.collect uid).1
    rw [get?_collect]
    split
    next htaken => simp [htaken]
    next hkept => simp [hkept]

lemma Traced.exchanges (h : Traced stamps history s) (requests : List Request) :
    Traced stamps (history ++ exchanges stamps requests s) (afterRequests stamps requests s) := by
  induction requests generalizing history s with
  | nil =>
    rw [Store.exchanges, afterRequests, List.append_nil]
    exact h
  | cons q rest ih =>
    rw [Store.exchanges, afterRequests, List.append_cons]
    exact ih (h.exchange q)

/-! ### What a history accounts for -/

/-- The objects and the journal of a store are those that its history tells of, whichever request comes
next the journal grows by what it creates, and a refusal has no effect. -/
structure AccountedFor (stamps : Nat → Stamp) (history : List Exchange) (s : Store) : Prop where
  place : ∀ key r, s.objects.get? key = some r →
    r.key = key ∧ key.name ≠ "" ∧ (key.inNamespace = none ↔ key.kind.isClusterScoped = true)
  origin : ∀ key r, s.objects.get? key = some r → ∃ given uid time,
    .create given (.ok r) ∈ history ∧
      r = { given with metadata := { given.metadata with uid := some uid, created := some time } }
  apart : ∀ key key' r r', s.objects.get? key = some r → s.objects.get? key' = some r' →
    r.metadata.uid = r'.metadata.uid → key = key'
  journal : List.Forall₂ Tells s.journal (history.filterMap Exchange.made?)
  journalUids : (s.journal.map fun e => e.stamp.uid).Nodup
  latestEntry : ∀ key r, s.objects.get? key = some r → ∃ before entry after,
    s.journal = before ++ entry :: after ∧ Tells entry r ∧ ∀ e ∈ after, e.key ≠ key
  found : ∀ key r, s.lookup key = .ok r ↔ Stands history key r
  missing : ∀ key, (∀ r, ¬ Stands history key r) ↔
    s.lookup key = .error (.notFound key.kind key.name)
  grows : ∀ q, ∃ more, (s.exchange stamps q).2.journal = s.journal ++ more ∧
    List.Forall₂ Tells more (s.exchange stamps q).1.made?.toList
  refused : ∀ r, (∃ e, (s.exchange stamps (.create r)).1 = .create r (.error e)) ↔
    ¬ r.key.IsStorable ∨ s.contains r.key = true
  unchanged : ∀ r e, (s.exchange stamps (.create r)).1 = .create r (.error e) →
    (s.exchange stamps (.create r)).2 = s

/-- The journal tells of an object that stands, and of none at its key afterwards. -/
lemma Traced.exists_entry (h : Traced stamps history s) (hstands : Stands history key r) :
    ∃ before entry after, s.journal = before ++ entry :: after ∧ Tells entry r ∧
      ∀ e ∈ after, e.key ≠ key := by
  obtain ⟨before, x, after, rfl, hmade, rfl, hafter⟩ := hstands
  have htells := h.tells
  rw [List.filterMap_append, List.filterMap_cons_some hmade] at htells
  obtain ⟨entry, later, hentry, hlater, hdrop⟩ :=
    List.forall₂_cons_right_iff.mp (List.forall₂_drop_append _ _ _ htells)
  refine ⟨_, entry, later, by rw [← hdrop, List.take_append_drop], hentry, ?_⟩
  intro e he hkey
  obtain ⟨i, hi, rfl⟩ := List.mem_iff_getElem.mp he
  obtain ⟨hlength, hget⟩ := List.forall₂_iff_get.mp hlater
  have htold := hget i hi (hlength ▸ hi)
  obtain ⟨y, hy, hmade'⟩ := List.mem_filterMap.mp (List.get_mem (after.filterMap _) ⟨i, hlength ▸ hi⟩)
  exact hafter y hy ((Exchange.changes_of_made? hmade').mpr (htold.1.symm.trans hkey))

lemma Traced.exists_tells (h : Traced stamps history s) (hr : s.objects.get? key = some r) :
    ∃ entry ∈ s.journal, Tells entry r ∧ entry.key = key := by
  have hstands := (h.stands key r).mp hr
  obtain ⟨before, entry, after, hjournal, htells, -⟩ := h.exists_entry hstands
  obtain ⟨_, _, _, _, _, hkey, _⟩ := hstands
  exact ⟨entry, hjournal ▸ List.mem_append_right _ List.mem_cons_self, htells, htells.1.trans hkey⟩

lemma Traced.nodup_uids (h : Traced stamps history s)
    (hfresh : Function.Injective fun n => (stamps n).uid) :
    (s.journal.map fun e => e.stamp.uid).Nodup := by
  have huids : (s.journal.map fun e => e.stamp.uid) =
      (List.range s.journal.length).map fun n => (stamps n).uid := by
    have hstamps := congrArg (List.map Stamp.uid) h.stamps
    rwa [List.map_map, List.map_map] at hstamps
  rw [huids]
  exact List.nodup_range.map hfresh

lemma Traced.place (h : Traced stamps history s) (hr : s.objects.get? key = some r) :
    r.key = key ∧ key.name ≠ "" ∧ (key.inNamespace = none ↔ key.kind.isClusterScoped = true) := by
  obtain ⟨before, x, after, rfl, hmade, rfl, -⟩ := (h.stands key r).mp hr
  obtain ⟨⟨hname, hscope⟩, -⟩ := h.given x (List.mem_append_right _ List.mem_cons_self) r hmade
  rw [ObjectKey.isInScope, beq_iff_eq] at hscope
  exact ⟨rfl, hname, by rw [hscope, Option.isNone_iff_eq_none]⟩

lemma Traced.origin (h : Traced stamps history s) (hr : s.objects.get? key = some r) :
    ∃ given stamp, .create given (.ok r) ∈ history ∧ r = given.stamped stamp := by
  obtain ⟨before, x, after, rfl, hmade, -⟩ := (h.stands key r).mp hr
  have hx := List.mem_append_right before (List.mem_cons_self (a := x) (l := after))
  obtain ⟨-, given, stamp, rfl, hstamped⟩ := h.given x hx r hmade
  exact ⟨given, stamp, hx, hstamped⟩

lemma Traced.apart (h : Traced stamps history s)
    (hfresh : Function.Injective fun n => (stamps n).uid) {key' : ObjectKey} {r' : Resource}
    (hr : s.objects.get? key = some r) (hr' : s.objects.get? key' = some r')
    (huid : r.metadata.uid = r'.metadata.uid) : key = key' := by
  obtain ⟨entry, hmem, htells, rfl⟩ := h.exists_tells hr
  obtain ⟨entry', hmem', htells', rfl⟩ := h.exists_tells hr'
  have hsame : entry.stamp.uid = entry'.stamp.uid := by
    rw [htells.2.1, htells'.2.1, Option.some.injEq] at huid
    exact huid
  rw [List.inj_on_of_nodup_map (h.nodup_uids hfresh) hmem hmem' hsame]

/-- Whatever a store is asked that starts empty, its history accounts for all that it holds, provided no
two of its stamps have the same identifier. -/
theorem history_accounts_for_store (hfresh : Function.Injective fun n => (stamps n).uid)
    (requests : List Request) : AccountedFor stamps (exchanges stamps requests .empty)
      (afterRequests stamps requests .empty) := by
  have h : Traced stamps (exchanges stamps requests .empty) (afterRequests stamps requests .empty) :=
    (traced_empty stamps).exchanges requests
  generalize afterRequests stamps requests .empty = s at h ⊢
  generalize exchanges stamps requests .empty = history at h ⊢
  exact {
    place := fun key r => h.place
    origin := fun key r hr => by
      obtain ⟨given, stamp, hmem, hstamped⟩ := h.origin hr
      exact ⟨given, stamp.uid, stamp.time, hmem, hstamped⟩
    apart := fun key key' r r' => h.apart hfresh
    journal := h.tells
    journalUids := h.nodup_uids hfresh
    latestEntry := fun key r hr => h.exists_entry ((h.stands key r).mp hr)
    found := fun key r => lookup_eq_ok_iff.trans (h.stands key r)
    missing := fun key => by
      simp only [lookup_eq_notFound_iff, ← h.stands, Option.eq_none_iff_forall_ne_some, ne_eq]
    grows := s.exists_more stamps
    refused := s.exists_refusal_iff stamps
    unchanged := fun r e => exchange_of_refusal }

def account : Resource := ⟨.of ⟨.serviceAccount, "training", some "lab"⟩ ∅, .serviceAccount⟩

/-- The account is created, and once more after it was deleted. -/
def renewal : List Request :=
  [.create account, .create account, .delete account.key, .create account]

theorem renewed_account_accounted_for :
    Function.Injective (fun n => (Stamp.numbered n).uid) ∧
    Stands (exchanges .numbered renewal .empty) account.key (account.stamped (.numbered 1)) ∧
    ¬ Stands (exchanges .numbered renewal .empty) account.key (account.stamped (.numbered 0)) ∧
    List.Forall₂ Tells [⟨account.key, .numbered 0⟩, ⟨account.key, .numbered 1⟩]
      ((exchanges .numbered renewal .empty).filterMap Exchange.made?) := by
  have h := history_accounts_for_store uid_numbered_injective renewal
  have hlookup : (afterRequests .numbered renewal .empty).lookup account.key =
      .ok (account.stamped (.numbered 1)) := by decide +kernel
  refine ⟨uid_numbered_injective, (h.found _ _).mp hlookup, fun hfirst => ?_, h.journal⟩
  rw [← h.found, hlookup] at hfirst
  exact absurd hfirst (by decide)

end WorkflowOperator.Store
