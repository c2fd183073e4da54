import WorkflowOperator.Proofs.Template.Joining
import WorkflowOperator.Text.Lines

/-!
# Texts filled in apart

Texts that are read apart are filled in apart: where the text put together is filled in, so is each of
them, and the result is put together from theirs. Lines are such texts if each is well formed alone. A
text without placeholders stays as it is.
-/

namespace WorkflowOperator

open Template Text

namespace Template

variable {b : Bindings}

/-! ### Templates of one text -/

lemma texts_ofText (s : String) : (ofText s).texts = [s] := rfl

lemma hasStrayBraces_ofText_iff {s : String} : (ofText s).HasStrayBraces ↔ IsMalformed s := by
  rw [hasStrayBraces_iff, IsWellFormed, texts_ofText]
  simp

lemma mentions_ofText_iff {s name : String} :
    (ofText s).Mentions name ↔ name ∈ placeholderNames s.toList := by
  rw [← mem_placeholders_iff_mentions, mem_placeholders_iff, texts_ofText]
  simp

lemma render_ofText_ok_iff {s out : String} : (ofText s).render b = .ok out ↔
    ¬ IsMalformed s ∧ (∀ name ∈ placeholderNames s.toList, b.get? name ≠ none) ∧
      out = fill b s := by
  have hwell : (ofText s).IsWellFormed ↔ ¬ IsMalformed s := by
    rw [← hasStrayBraces_ofText_iff, hasStrayBraces_iff, not_not]
  have hbound : (ofText s).unresolved b = [] ↔
      ∀ name ∈ placeholderNames s.toList, b.get? name ≠ none := by
    simp only [List.eq_nil_iff_forall_not_mem, mem_unresolved_iff, mentions_ofText_iff, not_and,
      ne_eq]
  have htext : String.join ((ofText s).segments.map (Segment.render b)) = fill b s := by
    simp [ofText, Segment.render]
  rw [render_ok_iff, hwell, hbound, htext]

/-! ### Texts without placeholders -/

lemma pieces_of_placeholderNames_eq_nil {s : List Char} (h : placeholderNames s = []) :
    pieces s = s.map .char := by
  induction s using readFromLeft with
  | nil => simp [pieces]
  | placeholder name written rest hspells ih =>
    rw [placeholderNames, pieces_spelled hspells] at h
    cases h
  | char c rest hplain ih =>
    have hrest : placeholderNames rest = [] := by
      rw [← h, placeholderNames, placeholderNames, pieces_plain hplain]
      rfl
    rw [pieces_plain hplain, ih hrest, List.map_cons]

lemma placeholderNames_eq_nil_of_not_hasPair {s : List Char} (h : ¬ HasPair s) :
    placeholderNames s = [] := by
  rw [List.eq_nil_iff_forall_not_mem]
  intro name hname
  obtain ⟨start, stop, front, written, back, rfl, hspells, -, -⟩ := mem_placeholderNames_iff.mp hname
  obtain ⟨c, inner, rfl, -⟩ := hspells.exists_inner
  exact h ⟨front, c :: inner ++ back, by simp⟩

lemma fill_of_placeholderNames_eq_nil {s : String} (h : placeholderNames s.toList = []) :
    fill b s = s := by
  rw [← String.toList_inj, toList_fill, pieces_of_placeholderNames_eq_nil h, List.flatMap_map]
  exact List.flatMap_singleton' _

/-! ### Texts put together -/

lemma fill_append_of_isCut {s t : String} (h : IsCut s.toList t.toList) :
    fill b (s ++ t) = fill b s ++ fill b t := by
  rw [← String.toList_inj, String.toList_append, toList_fill, toList_fill, toList_fill,
    String.toList_append, pieces_append_of_isCut h, List.flatMap_append]

lemma render_append_of_isCut {s t out : String} (hcut : IsCut s.toList t.toList)
    (h : (ofText (s ++ t)).render b = .ok out) : ∃ front rest,
      (ofText s).render b = .ok front ∧ (ofText t).render b = .ok rest ∧ out = front ++ rest := by
  obtain ⟨hwell, hbound, rfl⟩ := render_ofText_ok_iff.mp h
  rw [IsMalformed, String.toList_append, outside_append_of_isCut hcut, hasPair_append_iff, not_or,
    not_or] at hwell
  rw [String.toList_append, placeholderNames_append_of_isCut hcut, List.forall_mem_append] at hbound
  exact ⟨fill b s, fill b t, render_ofText_ok_iff.mpr ⟨hwell.1, hbound.1, rfl⟩,
    render_ofText_ok_iff.mpr ⟨hwell.2.1, hbound.2, rfl⟩, fill_append_of_isCut hcut⟩

/-- Of some texts each is read apart from all that follows it. -/
def AreReadApart : List String → Prop
  | [] => True
  | s :: rest => IsCut s.toList (String.join rest).toList ∧ AreReadApart rest

lemma render_join {texts : List String} {out : String} (hapart : AreReadApart texts)
    (h : (ofText (String.join texts)).render b = .ok out) : ∃ parts,
      List.Forall₂ (fun s part => (ofText s).render b = .ok part) texts parts ∧
        out = String.join parts := by
  induction texts generalizing out with
  | nil =>
    refine ⟨[], .nil, ?_⟩
    obtain ⟨-, -, rfl⟩ := render_ofText_ok_iff.mp h
    exact fill_of_placeholderNames_eq_nil placeholderNames_nil
  | cons s texts ih =>
    rw [String.join_cons] at h
    obtain ⟨part, rest, hpart, hrest, rfl⟩ := render_append_of_isCut hapart.1 h
    obtain ⟨parts, hparts, rfl⟩ := ih hapart.2 hrest
    exact ⟨part :: parts, .cons hpart hparts, String.join_cons.symm⟩

/-! ### Values within a line -/

def Bindings.textOf (b : Bindings) (name : String) : String := (b.get? name).getD ""

lemma Bindings.textOf_eq {name value : String} (h : b.get? name = some value) :
    b.textOf name = value := by
  rw [textOf, h]
  rfl

/-- A text has no pair of opening braces and takes no part in one with what follows. -/
def IsPlain (s : String) : Prop := ¬ HasPair s.toList ∧ s.toList.getLast? ≠ some '{'

instance (s : String) : Decidable (IsPlain s) := inferInstanceAs (Decidable (_ ∧ _))

lemma fill_plain {s : String} (h : ¬ HasPair s.toList) : fill b s = s :=
  fill_of_placeholderNames_eq_nil (placeholderNames_eq_nil_of_not_hasPair h)

lemma map_fill_plain {lines : List String} (h : ∀ l ∈ lines, ¬ HasPair l.toList) :
    lines.map (fill b) = lines := by
  conv_rhs => rw [← List.map_id lines]
  exact List.map_congr_left fun l hl => fill_plain (h l hl)

lemma outside_of_not_hasPair {s : List Char} (h : ¬ HasPair s) : outside s = s := by
  have hpieces := pieces_of_placeholderNames_eq_nil (placeholderNames_eq_nil_of_not_hasPair h)
  rw [outside, hpieces, List.filterMap_map]
  exact List.filterMap_some

lemma fill_plain_append {s : String} (h : IsPlain s) (t : String) :
    fill b (s ++ t) = s ++ fill b t := by
  have hcut : IsCut s.toList t.toList :=
    isCut_of_clean (by rw [outside_of_not_hasPair h.1]; exact h.1) h.2 _
  rw [fill_append_of_isCut hcut, fill_plain h.1]

lemma fill_slot_append {name : String} (h : isSlotName name = true) (t : String) :
    fill b (slot name ++ t) = b.textOf name ++ fill b t := by
  rw [← String.toList_inj, String.toList_append, toList_fill, toList_fill, String.toList_append,
    pieces_slot h, List.flatMap_cons]
  rfl

lemma fill_slot {name : String} (h : isSlotName name = true) :
    fill b (slot name) = b.textOf name := by
  have hnone : fill b "" = "" := fill_plain not_hasPair_nil
  rw [← String.append_empty (s := slot name), fill_slot_append h, hnone, String.append_empty]

end Template

/-! ### Lines -/

lemma asLines_append (lines lines' : List String) :
    asLines (lines ++ lines') = asLines lines ++ asLines lines' := by
  rw [← String.toList_inj]
  simp [asLines]

lemma asLines_cons (l : String) (lines : List String) :
    asLines (l :: lines) = l ++ "\n" ++ asLines lines := by
  rw [asLines, List.map_cons, String.join_cons]
  rfl

lemma toList_asLines (lines : List String) :
    (asLines lines).toList = lines.flatMap fun l => l.toList ++ ['\n'] := by
  induction lines with
  | nil => simp [asLines]
  | cons l lines ih => simpa [asLines] using ih

lemma pieces_line {l : String} (h : ¬ IsMalformed l) (rest : List Char) :
    pieces (l.toList ++ '\n' :: rest) = pieces l.toList ++ .char '\n' :: pieces rest := by
  have hcut : IsCut l.toList ['\n'] := isCut_of_isBarrier (by decide) _
  have hfeed : pieces ['\n'] = [.char '\n'] := by
    rw [pieces_cons_of_ne (by decide), pieces]
  have houtside : outside (l.toList ++ ['\n']) = outside l.toList ++ ['\n'] := by
    rw [outside_append_of_isCut hcut, outside, outside, hfeed]
    rfl
  have hpair : ¬ HasPair (outside (l.toList ++ ['\n'])) := by
    rw [houtside, hasPair_append_iff, not_or, not_or]
    exact ⟨h, by decide, fun hmeet => absurd hmeet.2 (by decide)⟩
  have hline : IsCut (l.toList ++ ['\n']) rest := isCut_of_clean hpair (by simp) rest
  rw [List.append_cons, pieces_append_of_isCut hline, pieces_append_of_isCut hcut, hfeed,
    List.append_assoc]
  rfl

lemma outside_line {l : String} (h : ¬ IsMalformed l) (rest : List Char) :
    outside (l.toList ++ '\n' :: rest) = outside l.toList ++ '\n' :: outside rest := by
  rw [outside, pieces_line h, List.filterMap_append]
  rfl

lemma placeholderNames_line {l : String} (h : ¬ IsMalformed l) (rest : List Char) :
    placeholderNames (l.toList ++ '\n' :: rest) =
      placeholderNames l.toList ++ placeholderNames rest := by
  rw [placeholderNames, pieces_line h, List.filterMap_append]
  rfl

section
variable {lines : List String} (h : ∀ l ∈ lines, ¬ IsMalformed l) (rest : List Char)
include h

lemma hasPair_asLines_iff :
    HasPair (outside ((asLines lines).toList ++ rest)) ↔ HasPair (outside rest) := by
  rw [toList_asLines]
  induction lines with
  | nil => rfl
  | cons l lines ih =>
    rw [List.forall_mem_cons] at h
    have hline : ¬ HasPair (outside l.toList) := h.1
    rw [List.flatMap_cons, List.append_assoc, List.append_assoc, List.singleton_append,
      outside_line h.1, hasPair_append_iff, hasPair_cons_iff, ih h.2, or_iff_right hline]
    simp

lemma mem_placeholderNames_asLines_iff {name : String} :
    name ∈ placeholderNames ((asLines lines).toList ++ rest) ↔
      (∃ l ∈ lines, name ∈ placeholderNames l.toList) ∨ name ∈ placeholderNames rest := by
  rw [toList_asLines]
  induction lines with
  | nil => simp
  | cons l lines ih =>
    rw [List.forall_mem_cons] at h
    rw [List.flatMap_cons, List.append_assoc, List.append_assoc, List.singleton_append,
      placeholderNames_line h.1, List.mem_append, ih h.2, List.exists_mem_cons_iff, or_assoc]

end

section
variable {lines : List String} (h : ∀ l ∈ lines, ¬ IsMalformed l)
include h

lemma not_isMalformed_asLines : ¬ IsMalformed (asLines lines) := by
  rw [IsMalformed, ← List.append_nil (asLines lines).toList, hasPair_asLines_iff h, outside_nil]
  exact not_hasPair_nil

lemma mem_placeholderNames_asLines {name : String} :
    name ∈ placeholderNames (asLines lines).toList ↔
      ∃ l ∈ lines, name ∈ placeholderNames l.toList := by
  rw [← List.append_nil (asLines lines).toList, mem_placeholderNames_asLines_iff h,
    placeholderNames_nil]
  simp

lemma isCut_asLines (rest : List Char) : IsCut (asLines lines).toList rest := by
  refine isCut_of_clean (not_isMalformed_asLines h) ?_ rest
  rw [toList_asLines]
  rcases List.eq_nil_or_concat lines with rfl | ⟨front, last, rfl⟩
  · simp
  · rw [List.concat_eq_append, List.flatMap_append, List.flatMap_singleton, ← List.append_assoc,
      List.getLast?_concat]
    decide

lemma fill_asLines (b : Bindings) : fill b (asLines lines) = asLines (lines.map (fill b)) := by
  induction lines with
  | nil => exact fill_plain not_hasPair_nil
  | cons l lines ih =>
    rw [List.forall_mem_cons] at h
    have htext : ∀ rest : String, (l ++ "\n" ++ rest).toList = l.toList ++ '\n' :: rest.toList := by
      simp
    rw [List.map_cons, asLines_cons, asLines_cons, ← ih h.2, ← String.toList_inj, toList_fill, htext,
      pieces_line h.1, List.flatMap_append, List.flatMap_cons, ← toList_fill, ← toList_fill]
    simp [Piece.replaced]

end

end WorkflowOperator
