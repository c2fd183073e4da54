import WorkflowOperator.Proofs.Template.Rendering
import WorkflowOperator.Proofs.Text.ShellWord

/-!
# What is bound to a name

A value is bound if it breaks no line. Those that are meant for a shell are checked character by character
before, and then they break no line: a shell word, several of them joined by single spaces, and the text
for a variable with a fallback.
-/

namespace WorkflowOperator.Template.Bindings

open Text

variable {b b' : Bindings} {name value var : String} {words : List String}

/-! ### Texts that break no line -/

lemma breaksLine_of_isShellWord (h : isShellWord value = true) : breaksLine value = false := by
  have hfeed : '\n' ∉ value.toList := not_mem_of_isShellWord h (by decide)
  have hreturn : '\r' ∉ value.toList := not_mem_of_isShellWord h (by decide)
  rw [breaksLine_eq_false_iff]
  exact fun c hc => ⟨ne_of_mem_of_not_mem hc hfeed, ne_of_mem_of_not_mem hc hreturn⟩

lemma breaksLine_append (s t : String) : breaksLine (s ++ t) = (breaksLine s || breaksLine t) := by
  simp [breaksLine]

lemma breaksLine_intercalate (h : ∀ s ∈ words, isShellWord s = true) :
    breaksLine (" ".intercalate words) = false := by
  induction words with
  | nil => rw [String.intercalate_nil]; rfl
  | cons s words ih =>
    rw [List.forall_mem_cons] at h
    have hs := breaksLine_of_isShellWord h.1
    cases words with
    | nil => rwa [String.intercalate_singleton]
    | cons s' words =>
      rw [String.intercalate_cons_cons, breaksLine_append, breaksLine_append, hs, ih h.2]
      rfl

lemma breaksLine_variableOr (hvar : isShellWord var = true) (h : isShellWord value = true) :
    breaksLine (variableOr var value) = false := by
  rw [variableOr, breaksLine_append, breaksLine_append, breaksLine_append, breaksLine_append,
    breaksLine_of_isShellWord hvar, breaksLine_of_isShellWord h]
  decide

/-! ### Checks -/

lemma checkShellWord_eq_ok_iff : checkShellWord name value = .ok () ↔ isShellWord value = true := by
  rw [← firstUnsafe?_eq_none_iff, checkShellWord]
  cases firstUnsafe? value with
  | none => simp
  | some c => simp

lemma forM_checkShellWord_eq_ok_iff :
    words.forM (checkShellWord name) = .ok () ↔ ∀ s ∈ words, isShellWord s = true := by
  induction words with
  | nil => exact iff_of_true rfl (by simp)
  | cons s words ih =>
    have hcons : (s :: words).forM (checkShellWord name) =
        checkShellWord name s >>= fun _ => words.forM (checkShellWord name) := rfl
    rw [hcons, bind_eq_ok_iff, List.forall_mem_cons, ← ih, ← @checkShellWord_eq_ok_iff name]
    exact ⟨fun ⟨_, hs, hwords⟩ => ⟨hs, hwords⟩, fun h => ⟨(), h⟩⟩

/-! ### Insertions -/

lemma insert_eq_ok_iff : b.insert name value = .ok b' ↔
    breaksLine value = false ∧ b' = ⟨b.values.insert name value⟩ := by
  rw [insert]
  cases breaksLine value <;> simp [eq_comm]

/-- After a check that leaves no line break the insertion itself does not fail. -/
lemma checked_eq_ok_iff {check : Except Fault Unit} {text : String}
    (hline : check = .ok () → breaksLine text = false) :
    (do check; b.insert name text) = .ok b' ↔
      check = .ok () ∧ b' = ⟨b.values.insert name text⟩ := by
  rw [bind_eq_ok_iff]
  constructor
  · rintro ⟨_, hcheck, hinsert⟩
    exact ⟨hcheck, (insert_eq_ok_iff.mp hinsert).2⟩
  · rintro ⟨hcheck, rfl⟩
    exact ⟨(), hcheck, insert_eq (hline hcheck)⟩

lemma insertShell_eq_ok_iff : b.insertShell name value = .ok b' ↔
    isShellWord value = true ∧ b' = ⟨b.values.insert name value⟩ := by
  rw [← @checkShellWord_eq_ok_iff name]
  exact checked_eq_ok_iff fun h => breaksLine_of_isShellWord (checkShellWord_eq_ok_iff.mp h)

lemma insertShellWords_eq_ok_iff : b.insertShellWords name words = .ok b' ↔
    (∀ s ∈ words, isShellWord s = true) ∧
      b' = ⟨b.values.insert name (" ".intercalate words)⟩ := by
  rw [← @forM_checkShellWord_eq_ok_iff name]
  exact checked_eq_ok_iff fun h => breaksLine_intercalate (forM_checkShellWord_eq_ok_iff.mp h)

lemma insertVariable_eq_ok_iff : b.insertVariable name var value = .ok b' ↔
    isVariableName var = true ∧ isShellWord value = true ∧
      b' = ⟨b.values.insert name (variableOr var value)⟩ := by
  rw [insertVariable]
  cases hname : isVariableName var with
  | false => exact iff_of_false nofun (fun h => Bool.false_ne_true h.1)
  | true =>
    have hvar := isShellWord_of_isVariableName hname
    rw [and_iff_right rfl, ← @checkShellWord_eq_ok_iff name]
    exact checked_eq_ok_iff fun h => breaksLine_variableOr hvar (checkShellWord_eq_ok_iff.mp h)

end WorkflowOperator.Template.Bindings
