import WorkflowOperator.Proofs.Template.Rendering

/-!
# Filling in as substitution

Filling in a text puts a value for every occurrence of a placeholder at once and keeps every other
character. What is left when all occurrences are deleted shows whether braces stand in the text that
open no placeholder. A template is filled in segment by segment, and the values put in and the literal
segments are never read again.
-/

namespace WorkflowOperator.Template

open Text

/-- What stands for a place of a text when each occurrence is replaced by the value of its name: the
value where the occurrence starts, nothing at its other places, and elsewhere the character itself. -/
inductive Becomes (values : String → List Char) (s : List Char) (i : Nat) : List Char → Prop
  | value {name : String} {stop : Nat} (h : OccursAt s name i stop) : Becomes values s i (values name)
  | nothing {name : String} {start stop : Nat} (h : OccursAt s name start stop) (hstart : start < i)
      (hstop : i < stop) : Becomes values s i []
  | same {c : Char} (hc : s[i]? = some c)
      (h : ∀ name start stop, OccursAt s name start stop → i < start ∨ stop ≤ i) :
      Becomes values s i [c]

/-- A text with every occurrence replaced by the value of its name, place by place. -/
def Substituted (values : String → List Char) (s t : List Char) : Prop :=
  ∃ part : Nat → List Char, (∀ i < s.length, Becomes values s i (part i)) ∧
    t = (List.range s.length).flatMap part

variable {values : String → List Char}

lemma substituted_nil_iff {t : List Char} : Substituted values [] t ↔ t = [] := by
  constructor
  · rintro ⟨part, -, rfl⟩
    rfl
  · rintro rfl
    exact ⟨fun _ => [], by simp, rfl⟩

lemma becomes_append_iff {front rest out : List Char} (hcut : IsCut front rest) (i : Nat) :
    Becomes values (front ++ rest) (front.length + i) out ↔ Becomes values rest i out := by
  have hplace : (front ++ rest)[front.length + i]? = rest[i]? := by
    rw [List.getElem?_append_right (Nat.le_add_right _ _), Nat.add_sub_cancel_left]
  constructor
  · intro hout
    cases hout with
    | value hoccurs =>
      obtain ⟨stop, -, hrest⟩ := hoccurs.of_append
      exact .value hrest
    | nothing hoccurs hstart hstop =>
      rcases hcut.occursAt_cases hoccurs with hbefore | ⟨start, stop, rfl, rfl, hrest⟩
      · omega
      · exact .nothing hrest (by omega) (by omega)
    | same hc hplain =>
      refine .same (hplace ▸ hc) fun name start stop hoccurs => ?_
      have hshift := hplain name _ _ (occursAt_append_iff.mpr hoccurs)
      omega
  · intro hout
    cases hout with
    | value hoccurs => exact .value (occursAt_append_iff.mpr hoccurs)
    | nothing hoccurs hstart hstop =>
      exact .nothing (occursAt_append_iff.mpr hoccurs) (by omega) (by omega)
    | same hc hplain =>
      refine .same (hplace.trans hc) fun name start stop hoccurs => ?_
      rcases hcut.occursAt_cases hoccurs with hbefore | ⟨start, stop, rfl, rfl, hrest⟩
      · omega
      · have hshift := hplain name _ _ hrest
        omega

lemma flatMap_range_add (m n : Nat) (part : Nat → List Char) :
    (List.range (m + n)).flatMap part =
      (List.range m).flatMap part ++ (List.range n).flatMap fun i => part (m + i) := by
  rw [List.range_add, List.flatMap_append, List.flatMap_map]

/-- Two texts between which no occurrence goes across have their occurrences replaced apart. -/
lemma substituted_append_iff {front rest t : List Char} (hcut : IsCut front rest) :
    Substituted values (front ++ rest) t ↔
      ∃ part : Nat → List Char, (∀ i < front.length, Becomes values (front ++ rest) i (part i)) ∧
        ∃ t', t = (List.range front.length).flatMap part ++ t' ∧ Substituted values rest t' := by
  constructor
  · rintro ⟨part, hpart, rfl⟩
    refine ⟨part, fun i hi => hpart i (by rw [List.length_append]; omega),
      (List.range rest.length).flatMap fun i => part (front.length + i), ?_,
      fun i => part (front.length + i), fun i hi => ?_, rfl⟩
    · rw [List.length_append, flatMap_range_add]
    · exact (becomes_append_iff hcut i).mp (hpart _ (by rw [List.length_append]; omega))
  · rintro ⟨part, hpart, t', rfl, part', hpart', rfl⟩
    let whole : Nat → List Char := fun i =>
      if i < front.length then part i else part' (i - front.length)
    have hfront : ∀ i < front.length, whole i = part i := fun i hi => if_pos hi
    have hrest : ∀ i, whole (front.length + i) = part' i := by
      intro i
      have hnot : ¬ front.length + i < front.length := by omega
      exact (if_neg hnot).trans (by rw [Nat.add_sub_cancel_left])
    refine ⟨whole, fun i hi => ?_, ?_⟩
    · by_cases hlt : i < front.length
      · rw [hfront i hlt]
        exact hpart i hlt
      · obtain ⟨j, rfl⟩ := Nat.exists_eq_add_of_le (Nat.le_of_not_lt hlt)
        rw [hrest, becomes_append_iff hcut]
        exact hpart' j (by rw [List.length_append] at hi; omega)
    · rw [List.length_append, flatMap_range_add]
      simp only [hrest]
      congr 1
      exact List.flatMap_congr fun i hi => (hfront i (List.mem_range.mp hi)).symm

lemma becomes_spelled_iff {name : String} {written rest out : List Char} (h : Spells name written)
    {i : Nat} (hi : i < written.length) :
    Becomes values (written ++ rest) i out ↔ out = if i = 0 then values name else [] := by
  constructor
  · intro hout
    cases hout with
    | value hoccurs =>
      have hlt := hoccurs.lt
      rcases (h.occursAt rest).eq_or_apart hoccurs with ⟨rfl, rfl, -⟩ | hapart | hapart
      · rfl
      · omega
      · omega
    | nothing hoccurs hstart hstop => rw [if_neg (by omega)]
    | same hc hplain =>
      have hapart := hplain _ _ _ (h.occursAt rest)
      omega
  · rintro rfl
    split
    next hzero => exact hzero ▸ .value (h.occursAt rest)
    next hne => exact .nothing (h.occursAt rest) (by omega) hi

lemma substituted_spelled_iff {name : String} {written rest t : List Char} (h : Spells name written) :
    Substituted values (written ++ rest) t ↔
      ∃ t', t = values name ++ t' ∧ Substituted values rest t' := by
  have hpart : ∀ part : Nat → List Char,
      (∀ i < written.length, part i = if i = 0 then values name else []) →
        (List.range written.length).flatMap part = values name := by
    intro part hpart
    obtain ⟨n, hn⟩ := Nat.exists_eq_add_of_lt h.length_pos
    rw [Nat.zero_add] at hn
    have hnothing : ∀ i ∈ List.range n, part (i + 1) = [] := fun i hi => by
      rw [hpart (i + 1) (by rw [List.mem_range] at hi; omega), if_neg (Nat.succ_ne_zero i)]
    rw [hn, List.range_succ_eq_map, List.flatMap_cons, List.flatMap_map, List.flatMap_congr hnothing,
      hpart 0 h.length_pos]
    simp
  rw [substituted_append_iff (isCut_spelled h rest)]
  constructor
  · rintro ⟨part, hbecomes, t', rfl, ht'⟩
    refine ⟨t', ?_, ht'⟩
    rw [hpart part fun i hi => (becomes_spelled_iff h hi).mp (hbecomes i hi)]
  · rintro ⟨t', rfl, ht'⟩
    refine ⟨fun i => if i = 0 then values name else [], fun i hi => (becomes_spelled_iff h hi).mpr rfl,
      t', ?_, ht'⟩
    rw [hpart _ fun _ _ => rfl]

lemma becomes_plain_iff {c : Char} {rest out : List Char} (h : StartsPlain (c :: rest)) :
    Becomes values (c :: rest) 0 out ↔ out = [c] := by
  constructor
  · intro hout
    cases hout with
    | value hoccurs => exact absurd rfl (hoccurs.start_ne_zero h)
    | nothing hoccurs hstart hstop => omega
    | same hc hplain =>
      rw [List.getElem?_cons_zero, Option.some.injEq] at hc
      rw [hc]
  · rintro rfl
    refine .same rfl fun name start stop hoccurs => ?_
    have hne := hoccurs.start_ne_zero h
    omega

lemma substituted_plain_iff {c : Char} {rest t : List Char} (h : StartsPlain (c :: rest)) :
    Substituted values (c :: rest) t ↔ ∃ t', t = c :: t' ∧ Substituted values rest t' := by
  have hpart : ∀ part : Nat → List Char, (∀ i < [c].length, Becomes values (c :: rest) i (part i)) ↔
      part 0 = [c] := by
    intro part
    rw [← becomes_plain_iff h, List.length_singleton]
    constructor
    · exact fun hbecomes => hbecomes 0 Nat.one_pos
    · intro hbecomes i hi
      obtain rfl : i = 0 := by omega
      exact hbecomes
  rw [← List.singleton_append, substituted_append_iff (isCut_plain h)]
  simp only [List.singleton_append, hpart]
  constructor
  · rintro ⟨part, hc, t', rfl, ht'⟩
    exact ⟨t', by simp [hc], ht'⟩
  · rintro ⟨t', rfl, ht'⟩
    exact ⟨fun _ => [c], rfl, t', by simp, ht'⟩

def Piece.replaced (values : String → List Char) : Piece → List Char
  | .placeholder name => values name
  | .char c => [c]

/-- Reading a text from the left and replacing what is read is the simultaneous substitution. -/
lemma substituted_iff {s t : List Char} :
    Substituted values s t ↔ t = (pieces s).flatMap (Piece.replaced values) := by
  induction s using readFromLeft generalizing t with
  | nil => rw [substituted_nil_iff, pieces, List.flatMap_nil]
  | placeholder name written rest hspells ih =>
    rw [substituted_spelled_iff hspells, pieces_spelled hspells, List.flatMap_cons]
    simp only [ih, exists_eq_right]
    rfl
  | char c rest hplain ih =>
    rw [substituted_plain_iff hplain, pieces_plain hplain, List.flatMap_cons]
    simp only [ih, exists_eq_right]
    rfl

lemma outside_eq (s : List Char) :
    outside s = (pieces s).flatMap (Piece.replaced fun _ => []) := by
  have hpiece : ∀ l : List Piece, l.filterMap (fun
      | .placeholder _ => none
      | .char c => some c) = l.flatMap (Piece.replaced fun _ => []) := by
    intro l
    induction l with
    | nil => rfl
    | cons p l ih =>
      cases p with
      | placeholder name => simpa [Piece.replaced] using ih
      | char c => simpa [Piece.replaced] using ih
  exact hpiece _

/-- A text from which all occurrences are deleted still has two adjoining opening braces. -/
lemma isMalformed_iff {s : String} : IsMalformed s ↔
    ∃ rest, Substituted (fun _ => []) s.toList rest ∧ HasPair rest := by
  simp only [substituted_iff, ← outside_eq, exists_eq_left, IsMalformed]

/-- The value that is put for a name; nothing if the name is not bound. -/
def Bindings.value (b : Bindings) (name : String) : List Char := ((b.get? name).getD "").toList

lemma toList_fill (b : Bindings) (s : String) :
    (fill b s).toList = (pieces s.toList).flatMap (Piece.replaced b.value) := by
  rw [fill, String.toList_ofList]
  refine List.flatMap_congr fun p _ => ?_
  cases p <;> rfl

/-- What a segment becomes: a text has its occurrences replaced, a literal stays as it is. -/
def Segment.Becomes (values : String → List Char) : Segment → String → Prop
  | .text s, out => Substituted values s.toList out.toList
  | .literal s, out => out = s

lemma Segment.becomes_iff {b : Bindings} {segment : Segment} {out : String} :
    segment.Becomes b.value out ↔ out = segment.render b := by
  cases segment with
  | text s => rw [Segment.Becomes, substituted_iff, ← toList_fill, String.toList_inj, Segment.render]
  | literal s => rfl

/-- A template mentions the names of all occurrences in its texts. -/
def Mentions (t : Template) (name : String) : Prop :=
  ∃ s ∈ t.texts, ∃ start stop, OccursAt s.toList name start stop

lemma mem_placeholders_iff_mentions {t : Template} {name : String} :
    name ∈ t.placeholders ↔ t.Mentions name := by
  simp only [mem_placeholders_iff, mem_placeholderNames_iff, Mentions]

lemma mem_unresolved_iff {t : Template} {b : Bindings} {name : String} :
    name ∈ t.unresolved b ↔ t.Mentions name ∧ b.get? name = none := by
  rw [unresolved, List.mem_filter, mem_placeholders_iff_mentions, Bool.not_eq_true',
    Bindings.contains, SortedMap.contains_eq_false_iff]
  rfl

/-- Whether, after all occurrences are deleted, two adjoining opening braces are left in a text of the
template. -/
def HasStrayBraces (t : Template) : Prop :=
  ∃ s ∈ t.texts, ∃ rest, Substituted (fun _ => []) s.toList rest ∧ HasPair rest

lemma hasStrayBraces_iff {t : Template} : t.HasStrayBraces ↔ ¬ t.IsWellFormed := by
  simp only [HasStrayBraces, ← isMalformed_iff, IsWellFormed, not_forall, not_not, exists_prop]

/-- Filling in a template is simultaneous substitution. Occurrences never overlap, and the placeholders
are their names in ascending order. Stray opening braces are refused first, then names without a value,
all of them in ascending order. Otherwise the result is what the segments become, one after the other. -/
theorem render_is_simultaneous_substitution (t : Template) (b : Bindings) :
    (∀ s ∈ t.texts, ∀ name start stop name' start' stop',
      OccursAt s.toList name start stop → OccursAt s.toList name' start' stop' →
        (name = name' ∧ start = start' ∧ stop = stop') ∨ stop ≤ start' ∨ stop' ≤ start) ∧
    (t.placeholders.Pairwise (· < ·) ∧ ∀ name, name ∈ t.placeholders ↔ t.Mentions name) ∧
    ((∃ context, t.render b = .error (.malformed context)) ↔ t.HasStrayBraces) ∧
    (¬ t.HasStrayBraces →
      ((∃ names, t.render b = .error (.unresolved names)) ↔
        ∃ name, t.Mentions name ∧ b.get? name = none) ∧
      (∀ names, t.render b = .error (.unresolved names) → names.Pairwise (· < ·) ∧
        ∀ name, name ∈ names ↔ t.Mentions name ∧ b.get? name = none) ∧
      ((∀ name, t.Mentions name → ∃ v, b.get? name = some v) →
        ∃ parts, List.Forall₂ (Segment.Becomes b.value) t.segments parts ∧
          t.render b = .ok (String.join parts))) := by
  refine ⟨?_, ⟨t.pairwise_placeholders, fun name => mem_placeholders_iff_mentions⟩, ?_, ?_⟩
  · intro s _ name start stop name' start' stop' h h'
    exact h.eq_or_apart h'
  · rw [render_malformed_iff, hasStrayBraces_iff]
  · intro hstray
    rw [hasStrayBraces_iff, not_not] at hstray
    simp only [render_unresolved_iff]
    refine ⟨?_, ?_, ?_⟩
    · constructor
      · rintro ⟨names, -, rfl, hne⟩
        obtain ⟨name, hname⟩ := List.exists_mem_of_ne_nil _ hne
        exact ⟨name, mem_unresolved_iff.mp hname⟩
      · rintro ⟨name, hname⟩
        exact ⟨_, hstray, rfl, List.ne_nil_of_mem (mem_unresolved_iff.mpr hname)⟩
    · rintro names ⟨-, rfl, -⟩
      exact ⟨t.pairwise_placeholders.filter _, fun name => mem_unresolved_iff⟩
    · intro hbound
      refine ⟨t.segments.map (Segment.render b), ?_, render_ok_iff.mpr ⟨hstray, ?_, rfl⟩⟩
      · rw [List.forall₂_map_right_iff, List.forall₂_same]
        exact fun segment _ => Segment.becomes_iff.mpr rfl
      · rw [List.eq_nil_iff_forall_not_mem]
        intro name hname
        obtain ⟨hmentions, hnone⟩ := mem_unresolved_iff.mp hname
        obtain ⟨v, hv⟩ := hbound name hmentions
        rw [hnone] at hv
        cases hv

end WorkflowOperator.Template
