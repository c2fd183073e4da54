import Mathlib.Data.List.Basic
import Mathlib.Data.Nat.Cast.Order.Basic
import Mathlib.Tactic.Lemma
import WorkflowOperator.Yaml.Core

/-!
# Numbers and truth values as plain scalars

A natural number in base ten and the two words for truth values are read as what they were written for:
the digits of a number start with no zero but its only one, so that no other reading comes first.
-/

namespace WorkflowOperator.Yaml.Core

lemma plainMeaning_bool (b : Bool) : plainMeaning (if b then "true" else "false") = .bool b := by
  cases b <;> rfl

lemma valueOfDigits_append (base : Nat) (ds : List Char) (c : Char) :
    Text.valueOfDigits? base (ds ++ [c]) = (Text.valueOfDigits? base ds).bind fun n =>
      (Text.digitValue? base c).map (base * n + ·) := by
  rw [Text.valueOfDigits?, List.foldlM_append]
  cases h : Text.valueOfDigits? base ds with
  | none =>
    rw [Text.valueOfDigits?] at h
    rw [h]
    rfl
  | some n =>
    rw [Text.valueOfDigits?] at h
    rw [h]
    simp [List.foldlM_cons]

lemma valueOfDigits_toDigits (n : Nat) : Text.valueOfDigits? 10 (Nat.toDigits 10 n) = some n := by
  induction n using Nat.strongRecOn with
  | ind n ih =>
    have hdigit : ∀ d < 10, Text.digitValue? 10 (Nat.digitChar d) = some d := by decide
    by_cases h : n < 10
    · rw [Nat.toDigits_of_lt_base h]
      simp [Text.valueOfDigits?, List.foldlM_cons, hdigit n h]
    · have hsplit := Nat.toDigits_append_toDigits (b := 10) (n := n / 10) (d := n % 10)
        (by decide) (by omega) (by omega)
      rw [Nat.toDigits_of_lt_base (show n % 10 < 10 by omega), Nat.div_add_mod] at hsplit
      rw [← hsplit, valueOfDigits_append, ih (n / 10) (by omega), Option.bind_some,
        hdigit (n % 10) (by omega), Option.map_some, Nat.div_add_mod]

lemma head_toDigits {n : Nat} (h : 0 < n) : (Nat.toDigits 10 n).head? ≠ some '0' := by
  induction n using Nat.strongRecOn with
  | ind n ih =>
    have hdigit : ∀ d < 10, 0 < d → Nat.digitChar d ≠ '0' := by decide
    by_cases hlt : n < 10
    · rw [Nat.toDigits_of_lt_base hlt, List.head?_cons, Ne, Option.some.injEq]
      exact hdigit n hlt h
    · have hsplit := Nat.toDigits_append_toDigits (b := 10) (n := n / 10) (d := n % 10)
        (by decide) (by omega) (by omega)
      rw [Nat.div_add_mod] at hsplit
      rw [← hsplit, List.head?_append_of_ne_nil _ Nat.toDigits_ne_nil]
      exact ih (n / 10) (by omega) (by omega)

lemma toDigits_cons (n : Nat) : ∃ c rest, Nat.toDigits 10 n = c :: rest ∧ c.isDigit = true ∧
    (c = '0' → rest = []) := by
  obtain ⟨c, rest, hcons⟩ := List.exists_cons_of_ne_nil (Nat.toDigits_ne_nil (n := n) (b := 10))
  refine ⟨c, rest, hcons, ?_, ?_⟩
  · exact Nat.isDigit_of_mem_toDigits (b := 10) (n := n) (by decide) (by decide)
      (hcons ▸ List.mem_cons_self)
  · rintro rfl
    rcases Nat.eq_zero_or_pos n with rfl | hpos
    · rw [Nat.toDigits_zero, List.cons.injEq] at hcons
      exact hcons.2.symm
    · have hhead := head_toDigits hpos
      rw [hcons] at hhead
      exact absurd rfl hhead

lemma head_toDigits_ne (n : Nat) {d : Char} (hd : d.isDigit = false) :
    (Nat.toDigits 10 n).head? ≠ some d := by
  obtain ⟨c, rest, hcons, hdigit, -⟩ := toDigits_cons n
  rw [hcons, List.head?_cons, Ne, Option.some.injEq]
  rintro rfl
  rw [hdigit] at hd
  cases hd

lemma base_toDigits (n : Nat) : base? (Nat.toDigits 10 n) = none := by
  obtain ⟨c, rest, hcons, -, hzero⟩ := toDigits_cons n
  rw [hcons]
  by_cases hc : c = '0'
  · rw [hc, hzero hc]
    rfl
  · unfold base?
    split <;> simp_all

lemma startsSigned_toDigits (n : Nat) : startsSigned (Nat.toDigits 10 n) = false := by
  have hplus := head_toDigits_ne n (d := '+') (by decide)
  have hminus := head_toDigits_ne n (d := '-') (by decide)
  obtain ⟨c, rest, hcons, -⟩ := toDigits_cons n
  rw [hcons, List.head?_cons, Ne, Option.some.injEq] at hplus hminus
  simp [hcons, startsSigned, hplus, hminus]

lemma hasLeadingZero_toDigits (n : Nat) : hasLeadingZero (Nat.toDigits 10 n) = false := by
  unfold hasLeadingZero
  rw [startsSigned_toDigits]
  obtain ⟨c, rest, hcons, -, hzero⟩ := toDigits_cons n
  rw [hcons]
  by_cases hc : c = '0'
  · rw [hc, hzero hc]
    rfl
  · simp only [Bool.false_eq_true, if_false]
    split <;> simp_all

lemma readNatural_toDigits (n : Nat) : Text.readNatural? 10 (Nat.toDigits 10 n) = some n := by
  have hnonempty : (Nat.toDigits 10 n).isEmpty = false := by
    rw [List.isEmpty_eq_false_iff]
    exact Nat.toDigits_ne_nil
  simp only [Text.readNatural?, hnonempty, Bool.false_eq_true, if_false, valueOfDigits_toDigits]

lemma unsigned_toDigits (n : Nat) : unsigned? (Nat.toDigits 10 n) = some n := by
  have hplus := head_toDigits_ne n (d := '+') (by decide)
  simp only [unsigned?, if_neg hplus, base_toDigits, startsSigned_toDigits, hasLeadingZero_toDigits,
    Bool.or_self, Bool.false_eq_true, if_false, readNatural_toDigits]

lemma integer_toString (n : Int) : integer? (toString n).toList = some n := by
  cases n with
  | ofNat n =>
    have htext : (toString (Int.ofNat n)).toList = Nat.toDigits 10 n := Nat.toList_repr
    rw [integer?, htext, unsigned_toDigits]
    rfl
  | negSucc n =>
    have htext : (toString (Int.negSucc n)).toList = '-' :: Nat.toDigits 10 (n + 1) := by
      change ("-" ++ Nat.repr (n + 1)).toList = _
      rw [String.toList_append, Nat.toList_repr]
      rfl
    have hunsigned : unsigned? ('-' :: Nat.toDigits 10 (n + 1)) = none := rfl
    simp only [integer?, htext, hunsigned, negative?, base_toDigits, hasLeadingZero_toDigits,
      Bool.false_eq_true, if_false, readNatural_toDigits]
    rfl

lemma plainMeaning_toString {n : Nat} (h : n < 2 ^ 64) : plainMeaning (toString n) = .int n := by
  have htext : (toString n).toList = Nat.toDigits 10 n := Nat.toList_repr
  obtain ⟨c, rest, hcons, hdigit, -⟩ := toDigits_cons n
  have hne : ∀ t : String, (t.toList.head?.all fun d => !d.isDigit) = true →
      (toString n == t) = false := by
    intro t ht
    refine beq_false_of_ne ?_
    rintro rfl
    rw [htext, hcons, List.head?_cons, Option.all_some, hdigit] at ht
    cases ht
  have hempty : (toString n).isEmpty = false := by
    rw [Bool.eq_false_iff, Ne, String.isEmpty_iff]
    intro heq
    have hnil := congrArg String.toList heq
    rw [htext, hcons] at hnil
    cases hnil
  have hnull : isNull (toString n) = false := by
    unfold isNull
    rw [hne "null" (by decide), hne "Null" (by decide), hne "NULL" (by decide), hne "~" (by decide)]
    rfl
  have hbool : bool? (toString n) = none := by
    unfold bool?
    rw [hne "true" (by decide), hne "True" (by decide), hne "TRUE" (by decide),
      hne "false" (by decide), hne "False" (by decide), hne "FALSE" (by decide)]
    rfl
  have hinteger : integerMeaning? (toString n).toList = some (.int n) := by
    rw [integerMeaning?, integer?, htext, unsigned_toDigits]
    have hlow : -0x8000000000000000 ≤ (n : Int) := by omega
    have hhigh : (n : Int) < 0x10000000000000000 := by omega
    rw [Option.bind_some]
    simp only [hlow, hhigh, decide_true, Bool.and_self, if_true]
  unfold plainMeaning
  rw [hempty, hnull, hbool, hinteger]
  rfl

end WorkflowOperator.Yaml.Core
