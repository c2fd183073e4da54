import WorkflowOperator.Proofs.Template.Substitution

/-!
# Texts put together

Two texts are read apart if no placeholder goes across the place between them. That is so after a text
whose own reading leaves no pair of opening braces and that does not end in one, whatever follows; and
before a text that cannot be the rest of a placeholder, whatever precedes. A text that is well formed
and filled in with values that bring no pair of opening braces has no such pair afterwards, although a
value may be empty and the characters around it then meet.
-/

namespace WorkflowOperator.Template

open Text

/-! ### Pairs of opening braces -/

lemma hasPair_append_iff {s t : List Char} :
    HasPair (s ++ t) ↔ HasPair s ∨ HasPair t ∨ (s.getLast? = some '{' ∧ t.head? = some '{') := by
  induction s with
  | nil => simp [not_hasPair_nil]
  | cons c s ih =>
    rw [List.cons_append, hasPair_cons_iff, hasPair_cons_iff, ih]
    cases s with
    | nil =>
      simp only [List.nil_append, List.head?_nil, List.getLast?_nil, List.getLast?_singleton,
        reduceCtorEq, false_and, and_false, or_false, Option.some.injEq]
      tauto
    | cons d s =>
      rw [List.cons_append, List.head?_cons, List.head?_cons, List.getLast?_cons_cons]
      tauto

/-! ### Texts that are read apart -/

lemma IsCut.of_append {front middle rest : List Char} (h : IsCut (front ++ middle) rest) :
    IsCut middle rest := by
  intro name start stop hoccurs
  have hcut := h name (front.length + start) (front.length + stop)
    (by rw [List.append_assoc]; exact occursAt_append_iff.mpr hoccurs)
  rw [List.length_append] at hcut
  omega

lemma IsCut.append {front middle rest : List Char} (h : IsCut front (middle ++ rest))
    (h' : IsCut middle rest) : IsCut (front ++ middle) rest := by
  intro name start stop hoccurs
  rw [List.append_assoc] at hoccurs
  rw [List.length_append]
  rcases h.occursAt_cases hoccurs with hbefore | ⟨start, stop, rfl, rfl, hrest⟩
  · omega
  · have hcut := h' name start stop hrest
    omega

lemma pieces_append_of_isCut {front rest : List Char} (h : IsCut front rest) :
    pieces (front ++ rest) = pieces front ++ pieces rest := by
  induction front using readFromLeft with
  | nil => simp [pieces]
  | placeholder name written front hspells ih =>
    rw [List.append_assoc, pieces_spelled hspells, pieces_spelled hspells, ih h.of_append]
    rfl
  | char c front hplain ih =>
    have hwhole : StartsPlain (c :: (front ++ rest)) := by
      rintro name written back hspells heq
      have hlength := congrArg List.length heq
      have hstop : written.length ≤ (c :: front).length := by
        have hcut := h name 0 written.length (by rw [List.cons_append, heq]; exact hspells.occursAt back)
        simpa using hcut
      obtain ⟨front', hfront⟩ : written <+: c :: front :=
        List.prefix_of_prefix_length_le ⟨back, heq.symm⟩ ⟨rest, rfl⟩ hstop
      exact hplain name written front' hspells hfront.symm
    have hsingle : IsCut ([c] ++ front) rest := h
    have hrest : IsCut front rest := hsingle.of_append
    rw [List.cons_append, pieces_plain hwhole, pieces_plain hplain, ih hrest]
    rfl

lemma outside_nil : outside [] = [] := by
  rw [outside, pieces]
  rfl

lemma placeholderNames_nil : placeholderNames [] = [] := by
  rw [placeholderNames, pieces]
  rfl

lemma outside_append_of_isCut {front rest : List Char} (h : IsCut front rest) :
    outside (front ++ rest) = outside front ++ outside rest := by
  rw [outside, pieces_append_of_isCut h, List.filterMap_append]
  rfl

lemma placeholderNames_append_of_isCut {front rest : List Char} (h : IsCut front rest) :
    placeholderNames (front ++ rest) = placeholderNames front ++ placeholderNames rest := by
  rw [placeholderNames, pieces_append_of_isCut h, List.filterMap_append]
  rfl

lemma outside_spelled {name : String} {written : List Char} (h : Spells name written)
    (rest : List Char) : outside (written ++ rest) = outside rest := by
  rw [outside, pieces_spelled h]
  rfl

lemma outside_plain {c : Char} {rest : List Char} (h : StartsPlain (c :: rest)) :
    outside (c :: rest) = c :: outside rest := by
  rw [outside, pieces_plain h]
  rfl

lemma Spells.startsPlain_tail {name : String} {written front rest back : List Char}
    (h : Spells name written) (heq : '{' :: (front ++ rest) = written ++ back) :
    StartsPlain front := by
  rintro name' written' back' h' rfl
  obtain ⟨c, inner, rfl, hinner⟩ := h.exists_inner
  obtain ⟨c', inner', rfl, -⟩ := h'.exists_inner
  simp only [List.cons_append, List.cons.injEq] at heq
  exact hinner (heq.2.2.1 ▸ List.mem_cons_self)

/-- No placeholder starts in a text and ends behind it, if what is left of the text on its own has no
pair of opening braces and the text does not end in one: such a placeholder would leave its own. -/
lemma isCut_of_clean {front : List Char} (hpair : ¬ HasPair (outside front))
    (hlast : front.getLast? ≠ some '{') (rest : List Char) : IsCut front rest := by
  induction front using readFromLeft with
  | nil => exact fun _ _ _ _ => Or.inr (Nat.zero_le _)
  | placeholder name written front hspells ih =>
    rw [outside_spelled hspells] at hpair
    refine (isCut_spelled hspells _).append (ih hpair fun hfront => hlast ?_)
    rw [List.getLast?_append, hfront]
    rfl
  | char c front hplain ih =>
    rw [outside_plain hplain, hasPair_cons_iff, not_or] at hpair
    have hfront : front.getLast? ≠ some '{' := by
      intro hfront
      rw [List.getLast?_cons, hfront] at hlast
      exact hlast rfl
    have hwhole : StartsPlain (c :: (front ++ rest)) := by
      rintro name written back hspells heq
      obtain ⟨d, inner, rfl, -⟩ := hspells.exists_inner
      obtain rfl : c = '{' := (List.cons.inj heq).1
      have hsecond : StartsPlain front := hspells.startsPlain_tail heq
      cases front with
      | nil => exact hlast rfl
      | cons e front =>
        obtain rfl : e = '{' := (List.cons.inj (List.cons.inj heq).2).1
        rw [outside_plain hsecond] at hpair
        exact hpair.1 ⟨rfl, rfl⟩
    have hcut := (isCut_plain hwhole).append (ih hpair.2 hfront)
    exact hcut

/-! ### Texts that end no placeholder -/

/-- A character that may stand between the braces of a placeholder. -/
def isInner (c : Char) : Bool := isAsciiBlank c || isWordChar c

lemma Spells.exists_all_inner {name : String} {written : List Char} (h : Spells name written) :
    ∃ inner, written = '{' :: '{' :: (inner ++ ['}', '}']) ∧ ∀ c ∈ inner, isInner c = true := by
  obtain ⟨hname, left, right, hleft, hright, rfl⟩ := h
  obtain ⟨d, more, hcons, hstart, hmore⟩ := isSlotName_iff.mp hname
  refine ⟨left ++ name.toList ++ right, by simp, fun c hc => ?_⟩
  rw [hcons, List.mem_append, List.mem_append, List.mem_cons] at hc
  rw [isInner, Bool.or_eq_true]
  rcases hc with (hc | rfl | hc) | hc
  · exact Or.inl (hleft c hc)
  · exact Or.inr (isWordChar_of_isIdentifierStart hstart)
  · exact Or.inr (hmore c hc)
  · exact Or.inl (hright c hc)

/-- A text cannot be the rest of a placeholder: it does not start with an opening brace, and its first
character that cannot stand inside of a placeholder is no closing brace. -/
def IsBarrier (s : List Char) : Prop :=
  s.head? ≠ some '{' ∧ (s.dropWhile isInner).head? ≠ some '}'

instance (s : List Char) : Decidable (IsBarrier s) := inferInstanceAs (Decidable (_ ∧ _))

lemma not_isBarrier_of_closing {inner before after : List Char}
    (hinner : ∀ c ∈ inner, isInner c = true) (heq : inner ++ ['}', '}'] = before ++ after)
    (hafter : after ≠ []) (back : List Char) : ¬ IsBarrier (after ++ back) := by
  suffices hclosing : ((after ++ back).dropWhile isInner).head? = some '}' from
    fun hbarrier => hbarrier.2 hclosing
  induction before generalizing inner with
  | nil =>
    rw [List.nil_append] at heq
    rw [← heq, List.append_assoc, List.dropWhile_append_of_pos hinner, List.cons_append,
      List.dropWhile_cons_of_neg (by decide)]
    rfl
  | cons c before ih =>
    cases inner with
    | cons d inner =>
      exact ih (fun e he => hinner e (List.mem_cons_of_mem _ he)) (List.cons.inj heq).2
    | nil =>
      -- the second part starts with the last brace
      obtain rfl : after = ['}'] := by
        cases before with
        | nil => exact (List.cons.inj heq).2.symm
        | cons e before =>
          have hlength := congrArg List.length heq
          simp only [List.nil_append, List.cons_append, List.length_cons, List.length_nil,
            List.length_append] at hlength
          exact absurd (List.length_eq_zero_iff.mp (by omega)) hafter
      rw [List.cons_append, List.dropWhile_cons_of_neg (by decide)]
      rfl

/-- No placeholder starts before a text and ends in it, if the text cannot be the rest of one. -/
lemma isCut_of_isBarrier {rest : List Char} (h : IsBarrier rest) (front : List Char) :
    IsCut front rest := by
  rintro name start stop ⟨front', written, back, heq, hspells, rfl, rfl⟩
  by_contra hacross
  rw [not_or, Nat.not_le, Nat.not_le] at hacross
  -- the placeholder is cut in two, and the second part starts the text
  obtain ⟨before, rfl, hback⟩ : ∃ before, front = front' ++ before ∧
      written ++ back = before ++ rest := by
    rcases List.append_eq_append_iff.mp heq with ⟨after, rfl, -⟩ | ⟨before, rfl, hback⟩
    · rw [List.length_append] at hacross
      omega
    · exact ⟨before, rfl, hback⟩
  rw [List.length_append] at hacross
  obtain ⟨after, rfl, rfl⟩ : ∃ after, written = before ++ after ∧ rest = after ++ back := by
    rcases List.append_eq_append_iff.mp hback with ⟨between, rfl, -⟩ | ⟨after, rfl, rfl⟩
    · rw [List.length_append] at hacross
      omega
    · exact ⟨after, rfl, rfl⟩
  rw [List.length_append] at hacross
  have hafter : after ≠ [] := List.length_pos_iff.mp (by omega)
  obtain ⟨inner, hwritten, hinner⟩ := hspells.exists_all_inner
  match before, hwritten with
  | [], _ => simp at hacross
  | [_], hwritten =>
    obtain rfl : after = '{' :: (inner ++ ['}', '}']) := (List.cons.inj hwritten).2
    exact h.1 rfl
  | _ :: _ :: before, hwritten =>
    have hinside := (List.cons.inj (List.cons.inj hwritten).2).2.symm
    exact not_isBarrier_of_closing hinner hinside hafter back h

/-! ### Texts filled in with values -/

/-- A text brings no pair of opening braces to where it is put in: it has none and neither starts nor
ends in an opening brace. -/
structure IsSealed (v : List Char) : Prop where
  head : v.head? ≠ some '{'
  last : v.getLast? ≠ some '{'
  pair : ¬ HasPair v

lemma isSealed_of_not_mem {v : List Char} (h : '{' ∉ v) : IsSealed v where
  head hhead := h (List.mem_of_head? hhead)
  last hlast := h (List.mem_of_getLast? hlast)
  pair hpair := h (hpair.subset List.mem_cons_self)

/-- Where the deleted placeholders leave no pair of opening braces, neither do the values that are put
in for them. An opening brace at the start of the result stood at the start of what was left. -/
lemma replaced_of_isSealed {values : String → List Char} (hsealed : ∀ name, IsSealed (values name))
    {l : List Piece} (h : ¬ HasPair (l.flatMap (Piece.replaced fun _ => []))) :
    ¬ HasPair (l.flatMap (Piece.replaced values)) ∧
      ((l.flatMap (Piece.replaced values)).head? = some '{' →
        (l.flatMap (Piece.replaced fun _ => [])).head? = some '{') := by
  induction l with
  | nil => exact ⟨h, id⟩
  | cons p l ih =>
    rw [List.flatMap_cons] at h
    rw [List.flatMap_cons, List.flatMap_cons]
    cases p with
    | placeholder name =>
      obtain ⟨hpair, hhead⟩ := ih h
      have hvalue := hsealed name
      refine ⟨?_, fun hfilled => ?_⟩
      · rw [Piece.replaced, hasPair_append_iff, not_or, not_or]
        exact ⟨hvalue.pair, hpair, fun hmeet => hvalue.last hmeet.1⟩
      · rw [Piece.replaced, List.head?_append, Option.or_eq_some_iff] at hfilled
        rcases hfilled with hstart | ⟨-, hrest⟩
        · exact absurd hstart hvalue.head
        · exact hhead hrest
    | char c =>
      have hdeleted : ¬ HasPair (c :: l.flatMap (Piece.replaced fun _ => [])) := h
      rw [hasPair_cons_iff, not_or] at hdeleted
      obtain ⟨hpair, hhead⟩ := ih hdeleted.2
      refine ⟨?_, fun hfilled => hfilled⟩
      rw [Piece.replaced, List.singleton_append, hasPair_cons_iff, not_or]
      exact ⟨fun hmeet => hdeleted.1 ⟨hmeet.1, hhead hmeet.2⟩, hpair⟩

lemma not_hasPair_of_render {s out : String} {b : Bindings}
    (hsealed : ∀ name v, b.get? name = some v → IsSealed v.toList)
    (h : (ofText s).render b = .ok out) : ¬ HasPair out.toList := by
  obtain ⟨hwell, -, rfl⟩ := render_ok_iff.mp h
  have hdeleted : ¬ HasPair (outside s.toList) := hwell s (by simp [ofText, texts, Segment.text?])
  rw [outside_eq] at hdeleted
  have hvalues : ∀ name, IsSealed (b.value name) := by
    intro name
    rw [Bindings.value]
    cases hvalue : b.get? name with
    | none => exact isSealed_of_not_mem (by simp)
    | some v => exact hsealed name v hvalue
  have htext : (String.join ((ofText s).segments.map (Segment.render b))).toList =
      (pieces s.toList).flatMap (Piece.replaced b.value) := by
    simp [ofText, Segment.render, toList_fill]
  rw [htext]
  exact (replaced_of_isSealed hvalues hdeleted).1

end WorkflowOperator.Template
