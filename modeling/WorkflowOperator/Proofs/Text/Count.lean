import WorkflowOperator.Proofs.Text.Form
import WorkflowOperator.Text.Count

/-!
# The form of counts

A count in words is one or more decimal digits, perhaps after a plus sign, whose value has 32 bits.
-/

namespace WorkflowOperator.Text

/-- A text is a number of 32 bits in decimal digits. -/
def SpellsCount (s : String) (n : UInt32) : Prop :=
  ∃ ds, (s.toList = ds ∨ s.toList = '+' :: ds) ∧ ds ≠ [] ∧ ConsistsOf digits ds ∧
    valueOfDecimals ds = n.toNat

lemma digitValue_ten_eq_some_iff {c : Char} {d : Nat} :
    digitValue? 10 c = some d ↔ c ∈ digits ∧ c.toNat - 48 = d := by
  have hdigits : c ∈ digits ↔ 48 ≤ c.toNat ∧ c.toNat ≤ 57 := Iff.rfl
  have hzero : ('0' ≤ c ∧ c ≤ '9') ↔ 48 ≤ c.toNat ∧ c.toNat ≤ 57 := Iff.rfl
  have hlower : ('a' ≤ c ∧ c ≤ 'f') ↔ 97 ≤ c.toNat ∧ c.toNat ≤ 102 := Iff.rfl
  have hupper : ('A' ≤ c ∧ c ≤ 'F') ↔ 65 ≤ c.toNat ∧ c.toNat ≤ 70 := Iff.rfl
  unfold digitValue? hexValue?
  simp only [Bool.and_eq_true, decide_eq_true_eq, hzero, hlower, hupper, hdigits,
    Option.filter_eq_some_iff]
  -- The letters have values of ten and more.
  split_ifs
  all_goals simp only [Option.some.injEq, false_and, false_iff]
  all_goals omega

lemma foldlM_digits_eq_some_iff (ds : List Char) (m n : Nat) :
    ds.foldlM (fun n c => (digitValue? 10 c).map (10 * n + ·)) m = some n ↔
      ConsistsOf digits ds ∧ ds.foldl (fun n c => 10 * n + (c.toNat - 48)) m = n := by
  induction ds generalizing m with
  | nil => simp [ConsistsOf]
  | cons c ds ih =>
    simp only [List.foldlM_cons, Option.bind_eq_bind, Option.bind_eq_some_iff, Option.map_eq_some_iff,
      digitValue_ten_eq_some_iff, ih, List.foldl_cons, ConsistsOf, List.forall_mem_cons]
    constructor
    · rintro ⟨_, ⟨_, ⟨hc, rfl⟩, rfl⟩, hds, hn⟩
      exact ⟨⟨hc, hds⟩, hn⟩
    · rintro ⟨⟨hc, hds⟩, hn⟩
      exact ⟨_, ⟨_, ⟨hc, rfl⟩, rfl⟩, hds, hn⟩

lemma readNatural_ten_eq_some_iff {ds : List Char} {n : Nat} :
    readNatural? 10 ds = some n ↔ ds ≠ [] ∧ ConsistsOf digits ds ∧ valueOfDecimals ds = n := by
  rw [readNatural?, valueOfDigits?, valueOfDecimals]
  by_cases hds : ds = []
  · simp [hds]
  · rw [if_neg (by simpa using hds), foldlM_digits_eq_some_iff]
    simp [hds]

lemma readCount_eq_some_iff {s : String} {n : UInt32} :
    readCount? s = some n ↔ SpellsCount s n := by
  have hread : ∀ ds, ((readNatural? 10 ds).filter (· < UInt32.size)).map UInt32.ofNat = some n ↔
      ds ≠ [] ∧ ConsistsOf digits ds ∧ valueOfDecimals ds = n.toNat := by
    intro ds
    rw [← readNatural_ten_eq_some_iff, Option.map_eq_some_iff]
    constructor
    · rintro ⟨m, hm, rfl⟩
      rw [Option.filter_eq_some_iff, decide_eq_true_eq] at hm
      rw [hm.1, UInt32.toNat_ofNat_of_lt' hm.2]
    · intro hds
      refine ⟨n.toNat, ?_, UInt32.ofNat_toNat⟩
      rw [Option.filter_eq_some_iff, decide_eq_true_eq]
      exact ⟨hds, n.toNat_lt⟩
  unfold readCount? SpellsCount
  -- A plus sign is no digit, so that a text has at most one of the two forms.
  split
  next rest hs =>
    rw [hread, hs]
    constructor
    · rintro hrest
      exact ⟨rest, Or.inr rfl, hrest⟩
    · rintro ⟨ds, rfl | hds, hne, hdigits, hvalue⟩
      · exact absurd (hdigits '+' List.mem_cons_self) (by simp [digits])
      · cases hds
        exact ⟨hne, hdigits, hvalue⟩
  next hs =>
    rw [hread]
    constructor
    · rintro hds
      exact ⟨_, Or.inl rfl, hds⟩
    · rintro ⟨ds, hds | hds, hrest⟩
      · exact hds ▸ hrest
      · exact absurd hds (hs ds)

end WorkflowOperator.Text
