import WorkflowOperator.Proofs.Latest
import WorkflowOperator.Proofs.Template.Insertion
import WorkflowOperator.Proofs.Text.Form

/-!
# The history of bindings

Values are bound to names one request after the other, each checked in one of four ways, and a name may be
bound again in another way. What is bound in the end is what was granted last for each name, in the form
that its check leaves; so no value ever breaks a line. A refusal leaves no trace, also when the bindings
are changed in place.
-/

namespace WorkflowOperator.Template.Bindings

open Text

/-- A request to bind a value to a name, by the way in which the value is checked. -/
inductive Request
  | line (name value : String)
  | shellWord (name value : String)
  | shellWords (name : String) (words : List String)
  | variableOr (name var fallback : String)

/-- A request with the answer to it. -/
structure Exchange where
  request : Request
  answer : Except Fault Unit

namespace Request

def name : Request → String
  | .line name _ => name
  | .shellWord name _ => name
  | .shellWords name _ => name
  | .variableOr name _ _ => name

def grant (b : Bindings) : Request → Except Fault Bindings
  | .line name value => b.insert name value
  | .shellWord name value => b.insertShell name value
  | .shellWords name words => b.insertShellWords name words
  | .variableOr name var fallback => b.insertVariable name var fallback

/-- The value that a request binds if what it is made of has the form that is asked for. -/
inductive Binds : Request → String → Prop
  | line {name value : String} (hvalue : ∀ c ∈ value.toList, c ≠ '\n' ∧ c ≠ '\r') :
    Binds (.line name value) value
  | shellWord {name value : String} (hvalue : ConsistsOf shellChars value.toList) :
    Binds (.shellWord name value) value
  | shellWords {name : String} {words : List String}
    (hwords : ∀ s ∈ words, ConsistsOf shellChars s.toList) :
    Binds (.shellWords name words) (" ".intercalate words)
  | variableOr {name var fallback : String} (hvar : HasVariableForm var)
    (hfallback : ConsistsOf shellChars fallback.toList) :
    Binds (.variableOr name var fallback) ("$\x7b" ++ var ++ ":-" ++ fallback ++ "\x7d")

end Request

/-- The answer to an attempt to change bindings, and those that there are after it. -/
def settle (b : Bindings) : Except Fault Bindings → Except Fault Unit × Bindings
  | .ok b' => (.ok (), b')
  | .error f => (.error f, b)

def exchange (b : Bindings) (q : Request) : Exchange × Bindings :=
  let (answer, b') := b.settle (q.grant b)
  (⟨q, answer⟩, b')

def exchanges : List Request → Bindings → List Exchange
  | [], _ => []
  | q :: rest, b => (b.exchange q).1 :: exchanges rest (b.exchange q).2

def afterRequests : List Request → Bindings → Bindings
  | [], b => b
  | q :: rest, b => afterRequests rest (b.exchange q).2

/-- Whether a request is the last that was granted for a name. -/
def IsGrantedLast (history : List Exchange) (name : String) (q : Request) : Prop :=
  q.name = name ∧
    IsLatest (fun x => x.request.name = name ∧ x.answer = .ok ()) history ⟨q, .ok ()⟩

variable {b b' : Bindings} {q : Request} {history : List Exchange} {name value : String} {f : Fault}

/-! ### One request -/

/-- Whether a request is granted does not hang on what is bound before. -/
lemma grant_eq_ok_iff : q.grant b = .ok b' ↔
    ∃ value, q.Binds value ∧ b' = ⟨b.values.insert q.name value⟩ := by
  cases q with
  | line name value =>
    refine insert_eq_ok_iff.trans ⟨?_, ?_⟩
    · rintro ⟨hline, rfl⟩
      exact ⟨value, .line (breaksLine_eq_false_iff.mp hline), rfl⟩
    · rintro ⟨_, hbinds, rfl⟩
      cases hbinds with
      | line hvalue => exact ⟨breaksLine_eq_false_iff.mpr hvalue, rfl⟩
  | shellWord name value =>
    refine insertShell_eq_ok_iff.trans ⟨?_, ?_⟩
    · rintro ⟨hword, rfl⟩
      exact ⟨value, .shellWord (isShellWord_iff.mp hword), rfl⟩
    · rintro ⟨_, hbinds, rfl⟩
      cases hbinds with
      | shellWord hvalue => exact ⟨isShellWord_iff.mpr hvalue, rfl⟩
  | shellWords name words =>
    refine insertShellWords_eq_ok_iff.trans ⟨?_, ?_⟩
    · rintro ⟨hwords, rfl⟩
      exact ⟨_, .shellWords fun s hs => isShellWord_iff.mp (hwords s hs), rfl⟩
    · rintro ⟨_, hbinds, rfl⟩
      cases hbinds with
      | shellWords hwords => exact ⟨fun s hs => isShellWord_iff.mpr (hwords s hs), rfl⟩
  | variableOr name var fallback =>
    refine insertVariable_eq_ok_iff.trans ⟨?_, ?_⟩
    · rintro ⟨hvar, hfallback, rfl⟩
      exact ⟨_, .variableOr (isVariableName_iff.mp hvar) (isShellWord_iff.mp hfallback), rfl⟩
    · rintro ⟨_, hbinds, rfl⟩
      cases hbinds with
      | variableOr hvar hfallback =>
        exact ⟨isVariableName_iff.mpr hvar, isShellWord_iff.mpr hfallback, rfl⟩

lemma Request.Binds.breaksLine (h : q.Binds value) : Bindings.breaksLine value = false := by
  cases h with
  | line hvalue => exact breaksLine_eq_false_iff.mpr hvalue
  | shellWord hvalue => exact breaksLine_of_isShellWord (isShellWord_iff.mpr hvalue)
  | shellWords hwords =>
    exact breaksLine_intercalate fun s hs => isShellWord_iff.mpr (hwords s hs)
  | variableOr hvar hfallback =>
    exact breaksLine_variableOr (isShellWord_of_isVariableName (isVariableName_iff.mpr hvar))
      (isShellWord_iff.mpr hfallback)

/-- A request is granted and its value put under its name, or it is refused and all stays as it is. -/
lemma exchange_cases (b : Bindings) (q : Request) :
    (∃ value, q.Binds value ∧
      b.exchange q = (⟨q, .ok ()⟩, ⟨b.values.insert q.name value⟩)) ∨
    ((∀ value, ¬ q.Binds value) ∧ ∃ f, b.exchange q = (⟨q, .error f⟩, b)) := by
  cases hgrant : q.grant b with
  | ok b' =>
    obtain ⟨value, hbinds, rfl⟩ := grant_eq_ok_iff.mp hgrant
    exact Or.inl ⟨value, hbinds, by rw [exchange, hgrant]; rfl⟩
  | error f =>
    refine Or.inr ⟨fun value hbinds => ?_, f, by rw [exchange, hgrant]; rfl⟩
    rw [grant_eq_ok_iff.mpr ⟨value, hbinds, rfl⟩] at hgrant
    cases hgrant

lemma answer_eq_ok_iff : (b.exchange q).1.answer = .ok () ↔ ∃ value, q.Binds value := by
  rcases exchange_cases b q with ⟨value, hbinds, hgranted⟩ | ⟨hnone, f, hrefused⟩
  · exact iff_of_true (by rw [hgranted]) ⟨value, hbinds⟩
  · rw [hrefused]
    exact iff_of_false nofun fun ⟨value, hbinds⟩ => hnone value hbinds

lemma exchange_of_refusal (h : (b.exchange q).1.answer = .error f) : (b.exchange q).2 = b := by
  rcases exchange_cases b q with ⟨value, -, hgranted⟩ | ⟨-, f', hrefused⟩
  · rw [hgranted] at h
    cases h
  · rw [hrefused]

lemma exists_binds_of_grant (h : (b.exchange q).1.answer = .ok ()) :
    ∃ value, q.Binds value ∧ (b.exchange q).2 = ⟨b.values.insert q.name value⟩ := by
  rcases exchange_cases b q with ⟨value, hbinds, hgranted⟩ | ⟨-, f, hrefused⟩
  · exact ⟨value, hbinds, by rw [hgranted]⟩
  · rw [hrefused] at h
    cases h

/-! ### In place -/

/-- What is done to bindings where they are: what was changed before a failure stays changed. -/
abbrev InPlace := ExceptT Fault (StateM Bindings)

def insertInPlace (name value : String) : InPlace Unit := do
  if Bindings.breaksLine value then throw (.multiline name)
  modify fun b => ⟨b.values.insert name value⟩

def Request.inPlace : Request → InPlace Unit
  | .line name value => insertInPlace name value
  | .shellWord name value => do
    checkShellWord name value
    insertInPlace name value
  | .shellWords name words => do
    words.forM fun s => checkShellWord name s
    insertInPlace name (" ".intercalate words)
  | .variableOr name var fallback => do
    unless isVariableName var do throw (.invalidVariable name var)
    checkShellWord name fallback
    insertInPlace name (Bindings.variableOr var fallback)

lemma run_insertInPlace (b : Bindings) (name value : String) :
    (insertInPlace name value).run.run b = b.settle (b.insert name value) := by
  rw [insertInPlace, insert]
  cases Bindings.breaksLine value <;> rfl

lemma run_checked (check : Except Fault Unit) (b : Bindings) (name value : String) :
    ((liftM check : InPlace Unit) >>= fun _ => insertInPlace name value).run.run b =
      b.settle (do check; b.insert name value) := by
  cases check with
  | ok _ => exact run_insertInPlace b name value
  | error f => rfl

lemma forM_liftM (check : String → Except Fault Unit) (words : List String) :
    (words.forM fun s => (liftM (check s) : InPlace Unit)) = liftM (words.forM check) := by
  induction words with
  | nil => rfl
  | cons s words ih =>
    change (liftM (check s) >>= fun _ => words.forM fun s => (liftM (check s) : InPlace Unit)) =
      liftM (check s >>= fun _ => words.forM check)
    rw [ih]
    cases check s <;> rfl

/-- Changed in place, bindings come to be the same as when they are made anew: before its only change a
request has made all of its checks. -/
lemma run_inPlace (b : Bindings) (q : Request) :
    q.inPlace.run.run b = ((b.exchange q).1.answer, (b.exchange q).2) := by
  cases q with
  | line name value => exact run_insertInPlace b name value
  | shellWord name value => exact run_checked _ b name value
  | shellWords name words =>
    -- all words are looked at before the value is put, so the loop is one check made apart
    rw [Request.inPlace, forM_liftM]
    exact run_checked _ b name _
  | variableOr name var fallback =>
    rw [Request.inPlace, exchange, Request.grant, insertVariable]
    cases isVariableName var with
    | false => rfl
    | true => exact run_checked _ b name _

/-! ### Histories -/

lemma Request.Binds.unique {value' : String} (h : q.Binds value) (h' : q.Binds value') :
    value = value' := by
  cases h <;> cases h' <;> rfl

lemma isGrantedLast_concat_granted {q' : Request} :
    IsGrantedLast (history ++ [⟨q, .ok ()⟩]) q.name q' ↔ q' = q := by
  rw [IsGrantedLast, isLatest_concat_iff]
  constructor
  · rintro ⟨-, hsame | ⟨-, hother⟩⟩
    · cases hsame
      rfl
    · exact absurd ⟨rfl, rfl⟩ hother
  · rintro rfl
    exact ⟨rfl, Or.inl rfl⟩

lemma isGrantedLast_concat_of_not {q' : Request} {answer : Except Fault Unit}
    (hother : ¬ (q'.name = name ∧ answer = .ok ())) :
    IsGrantedLast (history ++ [⟨q', answer⟩]) name q ↔ IsGrantedLast history name q := by
  rw [IsGrantedLast, isLatest_concat_iff, and_iff_left hother]
  refine and_congr_right fun hname => or_iff_right fun hsame => ?_
  cases hsame
  exact hother ⟨hname, rfl⟩

/-- What bindings hold comes from their history: under each name what was granted last for it, and all that
was granted had the form that is asked for. -/
structure Traced (history : List Exchange) (b : Bindings) : Prop where
  bound : ∀ name value, b.get? name = some value ↔
    ∃ q, IsGrantedLast history name q ∧ q.Binds value
  granted : ∀ x ∈ history, x.answer = .ok () → ∃ value, x.request.Binds value

lemma traced_empty : Traced [] .empty where
  bound := fun name value => by
    refine iff_of_false nofun ?_
    rintro ⟨q, ⟨-, hlatest⟩, -⟩
    exact not_isLatest_nil hlatest
  granted := by simp

lemma Traced.concat_granted (h : Traced history b) (hbinds : q.Binds value) :
    Traced (history ++ [⟨q, .ok ()⟩]) ⟨b.values.insert q.name value⟩ where
  bound := by
    intro name value'
    -- under its own name only the new value counts, under every other name what counted before
    by_cases hname : name = q.name
    · subst hname
      simp only [get?, SortedMap.get?_insert_self, Option.some.injEq, isGrantedLast_concat_granted,
        exists_eq_left]
      constructor
      · rintro rfl
        exact hbinds
      · exact hbinds.unique
    · have hother : ¬ (q.name = name ∧ (Except.ok () : Except Fault Unit) = .ok ()) :=
        fun hsame => hname hsame.1.symm
      rw [get?, SortedMap.get?_insert_of_ne _ hname]
      simp only [isGrantedLast_concat_of_not hother]
      exact h.bound name value'
  granted := by
    rw [List.forall_mem_append, List.forall_mem_singleton]
    exact ⟨h.granted, fun _ => ⟨value, hbinds⟩⟩

lemma Traced.concat_refused (h : Traced history b) : Traced (history ++ [⟨q, .error f⟩]) b where
  bound := by
    intro name value
    have hnone : ¬ (q.name = name ∧ (Except.error f : Except Fault Unit) = .ok ()) :=
      fun hsame => nomatch hsame.2
    simp only [isGrantedLast_concat_of_not hnone]
    exact h.bound name value
  granted := by
    rw [List.forall_mem_append, List.forall_mem_singleton]
    exact ⟨h.granted, nofun⟩

/-- Whatever is asked for, the answer carries on the trace. -/
lemma Traced.exchange (h : Traced history b) (q : Request) :
    Traced (history ++ [(b.exchange q).1]) (b.exchange q).2 := by
  rcases exchange_cases b q with ⟨value, hbinds, hgranted⟩ | ⟨-, f, hrefused⟩
  · rw [hgranted]
    exact h.concat_granted hbinds
  · rw [hrefused]
    exact h.concat_refused

lemma Traced.exchanges (h : Traced history b) (requests : List Request) :
    Traced (history ++ exchanges requests b) (afterRequests requests b) := by
  induction requests generalizing history b with
  | nil =>
    rw [Bindings.exchanges, afterRequests, List.append_nil]
    exact h
  | cons q rest ih =>
    rw [Bindings.exchanges, afterRequests, List.append_cons]
    exact ih (h.exchange q)

lemma Traced.exists_binds (h : Traced history b) (hlast : IsGrantedLast history name q) :
    ∃ value, q.Binds value ∧ b.get? name = some value := by
  obtain ⟨value, hbinds⟩ := h.granted _ hlast.2.mem rfl
  exact ⟨value, hbinds, (h.bound name value).mpr ⟨q, hlast, hbinds⟩⟩

lemma Traced.contains_iff (h : Traced history b) :
    b.contains name = true ↔ ∃ q, IsGrantedLast history name q := by
  rw [contains, SortedMap.contains_eq_true_iff]
  constructor
  · rintro ⟨value, hvalue⟩
    obtain ⟨q, hlast, -⟩ := (h.bound name value).mp hvalue
    exact ⟨q, hlast⟩
  · rintro ⟨q, hlast⟩
    obtain ⟨value, -, hvalue⟩ := h.exists_binds hlast
    exact ⟨value, hvalue⟩

/-- The values that are bound break no line, and each is what was granted last for its name, in the form
that its check leaves. Whichever request comes next, it is granted if what it is made of has that form, and
changes what is bound to its own name alone; a refused one changes nothing, also in place. -/
structure AreBoundAsGranted (history : List Exchange) (b : Bindings) : Prop where
  singleLine : ∀ name value, b.get? name = some value →
    ∀ c ∈ value.toList, c ≠ '\n' ∧ c ≠ '\r'
  contained : ∀ name, b.contains name = true ↔ ∃ q, IsGrantedLast history name q
  bound : ∀ name q, IsGrantedLast history name q →
    ∃ value, q.Binds value ∧ b.get? name = some value
  granted : ∀ q, (b.exchange q).1.answer = .ok () ↔ ∃ value, q.Binds value
  changed : ∀ q, (b.exchange q).1.answer = .ok () →
    (∃ value, q.Binds value ∧ (b.exchange q).2.get? q.name = some value) ∧
    ∀ name, name ≠ q.name → (b.exchange q).2.get? name = b.get? name
  refused : ∀ q f, (b.exchange q).1.answer = .error f → (b.exchange q).2 = b
  inPlace : ∀ q, q.inPlace.run.run b = ((b.exchange q).1.answer, (b.exchange q).2)

/-- After any requests each name is bound as its last granted request left it. -/
theorem bound_as_granted_last (requests : List Request) :
    AreBoundAsGranted (exchanges requests .empty) (afterRequests requests .empty) := by
  have h : Traced (exchanges requests .empty) (afterRequests requests .empty) :=
    traced_empty.exchanges requests
  -- which requests led here is told by the history alone
  generalize afterRequests requests .empty = b at h ⊢
  generalize exchanges requests .empty = history at h ⊢
  exact {
    singleLine := fun name value hvalue => by
      obtain ⟨q, -, hbinds⟩ := (h.bound name value).mp hvalue
      exact breaksLine_eq_false_iff.mp hbinds.breaksLine
    contained := fun name => h.contains_iff
    bound := fun name q => h.exists_binds
    granted := fun q => answer_eq_ok_iff
    changed := fun q hok => by
      obtain ⟨value, hbinds, hafter⟩ := exists_binds_of_grant hok
      rw [hafter]
      exact ⟨⟨value, hbinds, SortedMap.get?_insert_self _ _ _⟩,
        fun name hname => SortedMap.get?_insert_of_ne _ hname _⟩
    refused := fun q f => exchange_of_refusal
    inPlace := run_inPlace b }

-- the last of the words to be joined is refused, and the text with a fallback gives way to a plain line
example : (afterRequests [.shellWord "stages" "train", .shellWords "stages" ["train", "test;ls"],
    .variableOr "jobid" "JOBID" "job_1", .line "jobid" "job 1"] .empty).values.toList =
    [("jobid", "job 1"), ("stages", "train")] := by decide +kernel

end WorkflowOperator.Template.Bindings
