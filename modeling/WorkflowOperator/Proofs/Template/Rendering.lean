import Mathlib.Tactic.Lemma
import WorkflowOperator.Proofs.SortedMap
import WorkflowOperator.Proofs.Template.Occurrence

/-!
# Filled templates

A text without opening braces is copied, and the placeholder that the library writes for a name
becomes the value of that name, whatever the value holds. A template is refused for stray braces first,
then for placeholders without a value. Each of several values that are bound under different names is
found under its own.
-/

namespace WorkflowOperator

lemma bind_eq_ok_iff {ε α β : Type} {x : Except ε α} {f : α → Except ε β} {b : β} :
    (x >>= f) = .ok b ↔ ∃ a, x = .ok a ∧ f a = .ok b := by
  cases x with
  | error e =>
    constructor
    · intro h
      cases h
    · rintro ⟨a, h, -⟩
      cases h
  | ok a =>
    constructor
    · exact fun h => ⟨a, rfl, h⟩
    · rintro ⟨_, ⟨⟩, h⟩
      exact h

lemma bind_eq_error_iff {ε α β : Type} {x : Except ε α} {f : α → Except ε β} {e : ε} :
    (x >>= f) = .error e ↔ x = .error e ∨ ∃ a, x = .ok a ∧ f a = .error e := by
  cases x with
  | error e' =>
    constructor
    · intro h
      cases h
      exact Or.inl rfl
    · rintro (⟨⟨⟩⟩ | ⟨a, ⟨⟩, -⟩)
      rfl
  | ok a =>
    constructor
    · exact fun h => Or.inr ⟨a, rfl, h⟩
    · rintro (⟨⟨⟩⟩ | ⟨_, ⟨⟩, h⟩)
      exact h

namespace Template

open Text

lemma pieces_cons_of_ne {c : Char} (h : c ≠ '{') (rest : List Char) :
    pieces (c :: rest) = .char c :: pieces rest :=
  pieces_plain (readPlaceholder_eq_none_iff.mp (readPlaceholder_of_ne h rest))

lemma pieces_append {front : List Char} (h : '{' ∉ front) (rest : List Char) :
    pieces (front ++ rest) = front.map .char ++ pieces rest := by
  induction front with
  | nil => rfl
  | cons c front ih =>
    rw [List.mem_cons, not_or] at h
    rw [List.cons_append, pieces_cons_of_ne (Ne.symm h.1), ih h.2]
    rfl

lemma pieces_slot {name : String} (h : isSlotName name = true) (rest : List Char) :
    pieces ((slot name).toList ++ rest) = .placeholder name :: pieces rest :=
  pieces_spelled (spells_slot h) rest

lemma mem_outside_iff {c : Char} {s : List Char} : c ∈ outside s ↔ .char c ∈ pieces s := by
  rw [outside, List.mem_filterMap]
  constructor
  · rintro ⟨piece, hmem, heq⟩
    cases piece with
    | placeholder name => cases heq
    | char d =>
      cases heq
      exact hmem
  · intro h
    exact ⟨_, h, rfl⟩

/-- A text has two adjoining opening braces. -/
def HasPair (s : List Char) : Prop := ['{', '{'] <:+: s

lemma not_hasPair_nil : ¬ HasPair [] := by
  simp [HasPair]

lemma hasPair_cons_iff {c : Char} {s : List Char} :
    HasPair (c :: s) ↔ (c = '{' ∧ s.head? = some '{') ∨ HasPair s := by
  unfold HasPair
  rw [List.infix_cons_iff]
  refine or_congr_left ?_
  cases s with
  | nil => simp
  | cons d s => simp [List.cons_prefix_cons, eq_comm]

lemma opening_eq_none_iff {s : List Char} : opening? s = none ↔ ¬ HasPair s := by
  induction s using opening?.induct with
  | case1 => simp [opening?, not_hasPair_nil]
  | case2 rest => simp [opening?, hasPair_cons_iff]
  | case3 c rest hne ih =>
    have hhead : ¬ (c = '{' ∧ rest.head? = some '{') := by
      rintro ⟨rfl, hrest⟩
      obtain ⟨back, rfl⟩ := List.head?_eq_some_iff.mp hrest
      exact hne back rfl rfl
    rw [opening?, ih, hasPair_cons_iff, or_iff_right hhead]
    exact hne

instance (s : List Char) : Decidable (HasPair s) :=
  decidable_of_iff (¬ opening? s = none) (by rw [opening_eq_none_iff, not_not])

/-- Whether a text has two adjoining opening braces outside of its placeholders. -/
def IsMalformed (s : String) : Prop := HasPair (outside s.toList)

instance (s : String) : Decidable (IsMalformed s) := inferInstanceAs (Decidable (HasPair _))

lemma malformed_eq_none_iff {s : String} : malformed? s = none ↔ ¬ IsMalformed s := by
  rw [malformed?, Option.map_eq_none_iff, opening_eq_none_iff, IsMalformed]

lemma mem_placeholders_iff {t : Template} {name : String} :
    name ∈ t.placeholders ↔ ∃ s ∈ t.texts, name ∈ placeholderNames s.toList := by
  rw [placeholders, SortedMap.mem_keys_ofList, List.map_map]
  simp

lemma pairwise_placeholders (t : Template) : t.placeholders.Pairwise (· < ·) := by
  refine (SortedMap.pairwise_keys _).imp ?_
  intro a b hlt
  exact compareOfLessAndEq_eq_lt.mp hlt

def IsWellFormed (t : Template) : Prop := ∀ s ∈ t.texts, ¬ IsMalformed s

/-- The three outcomes of filling in a template. -/
lemma render_cases (t : Template) (b : Bindings) :
    (¬ t.IsWellFormed ∧ ∃ context, t.render b = .error (.malformed context)) ∨
    (t.IsWellFormed ∧ t.unresolved b ≠ [] ∧ t.render b = .error (.unresolved (t.unresolved b))) ∨
    (t.IsWellFormed ∧ t.unresolved b = [] ∧
      t.render b = .ok (String.join (t.segments.map (Segment.render b)))) := by
  cases hcheck : t.texts.findSome? malformed? with
  | some context =>
    left
    obtain ⟨s, hs, hcontext⟩ := List.exists_of_findSome?_eq_some hcheck
    refine ⟨fun hwell => ?_, context, ?_⟩
    · rw [malformed_eq_none_iff.mpr (hwell s hs)] at hcontext
      cases hcontext
    · rw [render, check, hcheck]
      rfl
  | none =>
    right
    have hwell : t.IsWellFormed :=
      fun s hs => malformed_eq_none_iff.mp (List.findSome?_eq_none_iff.mp hcheck s hs)
    cases hnames : t.unresolved b with
    | nil =>
      refine Or.inr ⟨hwell, rfl, ?_⟩
      rw [render, check, hcheck, hnames]
      rfl
    | cons name names =>
      refine Or.inl ⟨hwell, List.cons_ne_nil _ _, ?_⟩
      rw [render, check, hcheck, hnames]
      rfl

lemma render_malformed_iff {t : Template} {b : Bindings} :
    (∃ context, t.render b = .error (.malformed context)) ↔ ¬ t.IsWellFormed := by
  rcases t.render_cases b with ⟨hstray, hrender⟩ | ⟨hwell, -, hrender⟩ | ⟨hwell, -, hrender⟩
  · exact ⟨fun _ => hstray, fun _ => hrender⟩
  · simp [hrender, hwell]
  · simp [hrender, hwell]

lemma render_unresolved_iff {t : Template} {b : Bindings} {names : List String} :
    t.render b = .error (.unresolved names) ↔
      t.IsWellFormed ∧ names = t.unresolved b ∧ names ≠ [] := by
  rcases t.render_cases b with ⟨hstray, context, hrender⟩ | ⟨hwell, hne, hrender⟩ | ⟨hwell, hnil, hrender⟩
  · simp [hrender, hstray]
  · rw [hrender, Except.error.injEq, Fault.unresolved.injEq]
    constructor
    · rintro rfl
      exact ⟨hwell, rfl, hne⟩
    · exact fun h => h.2.1.symm
  · rw [hrender, hnil]
    simp

lemma render_ok_iff {t : Template} {b : Bindings} {out : String} :
    t.render b = .ok out ↔ t.IsWellFormed ∧ t.unresolved b = [] ∧
      out = String.join (t.segments.map (Segment.render b)) := by
  rcases t.render_cases b with ⟨hstray, context, hrender⟩ | ⟨hwell, hne, hrender⟩ | ⟨hwell, hnil, hrender⟩
  · simp [hrender, hstray]
  · simp [hrender, hne]
  · rw [hrender, Except.ok.injEq, hnil]
    constructor
    · rintro rfl
      exact ⟨hwell, rfl, rfl⟩
    · exact fun h => h.2.2.symm

lemma render_eq {t : Template} {b : Bindings} (hclean : ∀ s ∈ t.texts, '{' ∉ outside s.toList)
    (hbound : ∀ s ∈ t.texts, ∀ name ∈ placeholderNames s.toList, b.contains name = true) :
    t.render b = .ok (String.join (t.segments.map (Segment.render b))) := by
  refine render_ok_iff.mpr ⟨?_, ?_, rfl⟩
  · intro s hs hstray
    exact hclean s hs (hstray.subset List.mem_cons_self)
  · rw [unresolved, List.filter_eq_nil_iff]
    intro name hname
    obtain ⟨s, hs, hmem⟩ := mem_placeholders_iff.mp hname
    rw [hbound s hs name hmem]
    decide

lemma Bindings.breaksLine_eq_false_iff {s : String} :
    breaksLine s = false ↔ ∀ c ∈ s.toList, c ≠ '\n' ∧ c ≠ '\r' := by
  simp [breaksLine]

lemma Bindings.insert_eq {b : Bindings} {name value : String} (h : breaksLine value = false) :
    b.insert name value = .ok ⟨b.values.insert name value⟩ := by
  rw [Bindings.insert, h]
  rfl

lemma Bindings.get?_insert_self {b b' : Bindings} {name value : String}
    (h : b.insert name value = .ok b') : b'.get? name = some value := by
  unfold Bindings.insert at h
  split at h
  · cases h
  · cases h
    exact SortedMap.get?_insert_self _ _ _

lemma Bindings.get?_insert_of_ne {b b' : Bindings} {name name' value : String}
    (hne : name' ≠ name) (h : b.insert name value = .ok b') : b'.get? name' = b.get? name' := by
  unfold Bindings.insert at h
  split at h
  · cases h
  · cases h
    exact SortedMap.get?_insert_of_ne _ hne _

end Template

end WorkflowOperator
