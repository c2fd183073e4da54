import WorkflowOperator.Proofs.Workflow.Required
import WorkflowOperator.Proofs.Yaml.Scanning

/-!
# Why a document is refused

A refusal is told apart by the words of the fault. They say that an entry is missing where the fault is
that it is missing, and also where they quote a text that says so itself.
-/

namespace WorkflowOperator.Workflow

open Yaml Yaml.Decoder

/-! ### Names in messages -/

/-- A text names an entry as missing: what is said before the name of a missing entry stands in it, and
after the first place where it stands come the name and a backquote. -/
def Names (words name : String) : Prop :=
  ∃ before after, words.toList = before ++ (missingMarker.toList ++ (name.toList ++ '\x60' :: after)) ∧
    (∀ front back, words.toList = front ++ (missingMarker.toList ++ back) →
      before.length ≤ front.length) ∧ '\x60' ∉ name.toList

section Marker

variable {marker s rest front t : List Char}

lemma splitAt?_eq_some_iff : splitAt? marker s = some rest ↔
    ∃ before, s = before ++ (marker ++ rest) ∧
      ∀ front back, s = front ++ (marker ++ back) → before.length ≤ front.length := by
  induction s with
  | nil =>
    rw [splitAt?]
    constructor
    · intro h
      split_ifs at h with hmarker
      cases h
      exact ⟨[], by rw [List.isEmpty_iff.mp hmarker]; rfl, fun _ _ _ => Nat.zero_le _⟩
    · rintro ⟨before, hs, -⟩
      obtain ⟨-, hs⟩ := List.append_eq_nil_iff.mp hs.symm
      obtain ⟨rfl, rfl⟩ := List.append_eq_nil_iff.mp hs
      rfl
  | cons c s ih =>
    rw [splitAt?]
    by_cases hfirst : marker.isPrefixOf (c :: s) = true
    · obtain ⟨back, hback⟩ := List.isPrefixOf_iff_prefix.mp hfirst
      rw [if_pos hfirst, ← hback, List.drop_left, Option.some.injEq]
      constructor
      · rintro rfl
        exact ⟨[], rfl, fun _ _ _ => Nat.zero_le _⟩
      · rintro ⟨before, hs, hleast⟩
        obtain rfl := List.eq_nil_of_length_eq_zero (Nat.le_zero.mp (hleast [] back rfl))
        exact List.append_cancel_left hs
    · have hnot : ∀ back, c :: s ≠ marker ++ back := fun back h =>
        hfirst (List.isPrefixOf_iff_prefix.mpr ⟨back, h.symm⟩)
      rw [if_neg hfirst, ih]
      constructor
      · rintro ⟨before, rfl, hleast⟩
        refine ⟨c :: before, rfl, fun front back h => ?_⟩
        cases front with
        | nil => exact absurd h (hnot back)
        | cons d front => exact Nat.succ_le_succ (hleast front back (List.cons.inj h).2)
      · rintro ⟨before, hs, hleast⟩
        cases before with
        | nil => exact absurd hs (hnot rest)
        | cons d before =>
          obtain ⟨rfl, hs'⟩ := List.cons.inj hs
          refine ⟨before, hs', fun front back h => ?_⟩
          exact Nat.le_of_succ_le_succ (hleast (c :: front) back (congrArg (c :: ·) h))

lemma splitAt?_append : splitAt? marker (marker ++ rest) = some rest :=
  splitAt?_eq_some_iff.mpr ⟨[], rfl, fun _ _ _ => Nat.zero_le _⟩

lemma prefix_of_notMem {c : Char} (hc : c ∉ marker) (h : marker <+: front ++ c :: t) :
    marker <+: front := by
  obtain ⟨back, hback⟩ := h
  rcases List.append_eq_append_iff.mp hback with ⟨a, hfront, -⟩ | ⟨a, hmarker, ha⟩
  · exact ⟨a, hfront.symm⟩
  · cases a with
    | nil => exact ⟨[], by rw [hmarker, List.append_nil, List.append_nil]⟩
    | cons d a =>
      obtain ⟨rfl, -⟩ := List.cons.inj ha
      exact absurd (hmarker ▸ List.mem_append_right front List.mem_cons_self) hc

/-- A marker does not begin in front of a character that it does not have, if it does not fit there. -/
lemma splitAt?_append_cons (front : List Char) {b c : Char} (hb : b ∈ marker) (hfront : b ∉ front)
    (hc : c ∉ marker) :
    splitAt? marker (front ++ c :: t) = splitAt? marker t := by
  have hnot : ∀ u, b ∉ u → ¬ marker.isPrefixOf (u ++ c :: t) = true := fun u hu h =>
    hu ((prefix_of_notMem hc (List.isPrefixOf_iff_prefix.mp h)).subset hb)
  induction front with
  | nil => exact if_neg (hnot [] List.not_mem_nil)
  | cons d front ih =>
    exact (if_neg (hnot (d :: front) hfront)).trans (ih (List.not_mem_of_not_mem_cons hfront))

end Marker

lemma takeWhile_backquote {name : List Char} (h : '\x60' ∉ name) (after : List Char) :
    (name ++ '\x60' :: after).takeWhile (· != '\x60') = name := by
  rw [List.takeWhile_append_of_pos fun c hc => bne_iff_ne.mpr (ne_of_mem_of_not_mem hc h)]
  simp

lemma namedMissing?_eq_some_iff {words name : String} :
    namedMissing? words = some name ↔ Names words name := by
  unfold namedMissing?
  rw [Option.bind_eq_some_iff]
  constructor
  · rintro ⟨rest, hrest, hname⟩
    obtain ⟨before, hwords, hleast⟩ := splitAt?_eq_some_iff.mp hrest
    split_ifs at hname with hmem
    obtain ⟨u, after, rfl, hu⟩ := List.eq_append_cons_of_mem (List.contains_iff_mem.mp hmem)
    rw [takeWhile_backquote hu, Option.some.injEq] at hname
    subst hname
    refine ⟨before, after, ?_, hleast, ?_⟩
    · rw [String.toList_ofList]
      exact hwords
    · rw [String.toList_ofList]
      exact hu
  · rintro ⟨before, after, hwords, hleast, hname⟩
    refine ⟨_, splitAt?_eq_some_iff.mpr ⟨before, hwords, hleast⟩, ?_⟩
    rw [if_pos (by simp), takeWhile_backquote hname, String.ofList_toList]

lemma names_of_notMem {words name : String} {before after : List Char}
    (h : words.toList = before ++ (missingMarker.toList ++ (name.toList ++ '\x60' :: after)))
    (hbefore : '\x60' ∉ before) (hname : '\x60' ∉ name.toList) : Names words name := by
  refine ⟨before, after, h, fun front back hother => ?_, hname⟩
  obtain ⟨m, hm, hfree⟩ : ∃ m, missingMarker.toList = m ++ ['\x60'] ∧ '\x60' ∉ m :=
    ⟨"missing field ".toList, rfl, by decide⟩
  have hsame : (before ++ m) ++ '\x60' :: (name.toList ++ '\x60' :: after) =
      (front ++ m) ++ '\x60' :: back := by
    rw [h, hm] at hother
    simpa using hother
  -- The marker ends in its only backquote, so the first backquote of the text ends its first place.
  have hlength : (before ++ m).length ≤ (front ++ m).length := by
    rcases List.append_eq_append_iff.mp hsame with ⟨u, hfront, -⟩ | ⟨u, hu, hrest⟩
    · rw [hfront]
      exact (List.prefix_append _ _).length_le
    · cases u with
      | nil => rw [hu, List.append_nil]
      | cons c u =>
        obtain ⟨rfl, -⟩ := List.cons.inj hrest
        have hmem : '\x60' ∈ before ++ m := hu ▸ List.mem_append_right _ List.mem_cons_self
        rcases List.mem_append.mp hmem with hmem | hmem
        · exact absurd hmem hbefore
        · exact absurd hmem hfree
  rw [List.length_append, List.length_append] at hlength
  omega

lemma exists_toList_at {place : Place} (hplace : '\x60' ∉ place.toList) (words : String) :
    ∃ before, (Fault.message.at_ place words).toList = before ++ words.toList ∧ '\x60' ∉ before := by
  unfold Fault.message.at_
  split_ifs
  · exact ⟨[], rfl, List.not_mem_nil⟩
  · exact ⟨place.toList ++ ": ".toList, by simp, by simp [hplace]⟩

lemma names_missing {place : Place} {name : String} (hplace : '\x60' ∉ place.toList)
    (hname : '\x60' ∉ name.toList) : Names (Fault.missing place name).message name := by
  obtain ⟨before, hwords, hbefore⟩ := exists_toList_at hplace (missingMarker ++ name ++ "\x60")
  have hnamed : (Fault.missing place name).message.toList =
      before ++ (missingMarker.toList ++ (name.toList ++ '\x60' :: [])) := by
    rw [Fault.message, hwords]
    simp
  exact names_of_notMem hnamed hbefore hname

lemma Names.backquote_mem {words name : String} (h : Names words name) : '\x60' ∈ words.toList := by
  obtain ⟨before, after, hwords, -⟩ := h
  rw [hwords]
  simp

/-! ### Quoted texts -/

section Quoted

open Text

lemma digitChar_mem {d : Nat} (h : d < 16) : d.digitChar ∈ "0123456789abcdef".toList := by
  interval_cases d <;> decide

lemma mem_hexDigits {c : Char} {n : Nat} (h : c ∈ hexDigits n) : c ∈ "0123456789abcdef".toList := by
  unfold hexDigits at h
  induction n using Nat.strongRecOn with
  | ind n ih =>
    by_cases hlt : n < 16
    · rw [Nat.toDigits_of_lt_base hlt, List.mem_singleton] at h
      exact h ▸ digitChar_mem hlt
    · have hdigit : n % 16 < 16 := by omega
      have hsplit := Nat.toDigits_append_toDigits (b := 16) (n := n / 16) (d := n % 16)
        (by decide) (by omega) hdigit
      rw [Nat.toDigits_of_lt_base hdigit, Nat.div_add_mod] at hsplit
      rw [← hsplit] at h
      rcases List.mem_append.mp h with h | h
      · exact ih (n / 16) (by omega) h
      · exact List.mem_singleton.mp h ▸ digitChar_mem hdigit

lemma quotedChar_eq (c : Char) : quotedChar '"' c = [c] ∨
    ∃ tail, quotedChar '"' c = '\\' :: tail ∧ 'm' ∉ tail ∧ '\x60' ∉ tail := by
  unfold quotedChar
  split_ifs with h₁ h₂ h₃ h₄ h₅ h₆
  · exact Or.inr ⟨_, rfl, by decide, by decide⟩
  · exact Or.inr ⟨_, rfl, by decide, by decide⟩
  · exact Or.inr ⟨_, rfl, by decide, by decide⟩
  · exact Or.inr ⟨_, rfl, by decide, by decide⟩
  · simp only [Bool.or_eq_true, decide_eq_true_eq] at h₅
    rcases h₅ with rfl | rfl
    · exact Or.inr ⟨_, rfl, by decide, by decide⟩
    · exact Or.inr ⟨_, rfl, by decide, by decide⟩
  · refine Or.inr ⟨_, rfl, ?_, ?_⟩
    · have hm : 'm' ∉ hexDigits c.toNat := fun h => absurd (mem_hexDigits h) (by decide)
      simp [hm]
    · have hm : '\x60' ∉ hexDigits c.toNat := fun h => absurd (mem_hexDigits h) (by decide)
      simp [hm]
  · exact Or.inl rfl

lemma quotedChar_of_visible {c : Char} (hlow : 0x20 ≤ c.toNat) (hhigh : c.toNat < 0x7F)
    (hplain : c ≠ '\\' ∧ c ≠ '"') : quotedChar '"' c = [c] := by
  have hcontrol : ∀ d : Char, d.toNat < 0x20 → c ≠ d := by
    rintro d hd rfl
    omega
  have hprinted : Unprintable.holds c = false := by
    unfold Unprintable.holds
    dsimp only
    rw [if_pos hhigh, decide_eq_false_iff_not]
    omega
  rw [quotedChar, if_neg (hcontrol _ (by decide)), if_neg (hcontrol _ (by decide)),
    if_neg (hcontrol _ (by decide)), if_neg (hcontrol _ (by decide)), if_neg (by simpa using hplain),
    hprinted]
  rfl

lemma quotedChar_missingMarker : ∀ c ∈ missingMarker.toList, quotedChar '"' c = [c] := by
  have hvisible : missingMarker.toList.all (fun c =>
      0x20 ≤ c.toNat && c.toNat < 0x7F && c != '\\' && c != '"') = true := by
    decide
  intro c hc
  have hchar := List.all_eq_true.mp hvisible c hc
  simp only [Bool.and_eq_true, decide_eq_true_eq, bne_iff_ne] at hchar
  obtain ⟨⟨⟨hlow, hhigh⟩, hbackslash⟩, hquote⟩ := hchar
  exact quotedChar_of_visible hlow hhigh ⟨hbackslash, hquote⟩

lemma flatMap_quotedChar {s : List Char} (h : ∀ c ∈ s, quotedChar '"' c = [c]) :
    s.flatMap (quotedChar '"') = s := by
  induction s with
  | nil => rfl
  | cons c s ih =>
    rw [List.flatMap_cons, h c List.mem_cons_self, ih fun d hd => h d (List.mem_cons_of_mem c hd)]
    rfl

/-- Characters that stand for themselves begin a quoted text just if they begin the text. -/
lemma prefix_quoted_iff {m s : List Char} (hm : ∀ c ∈ m, quotedChar '"' c = [c]) :
    m <+: s.flatMap (quotedChar '"') ++ ['"'] ↔ m <+: s := by
  induction m generalizing s with
  | nil => simp
  | cons x m ih =>
    have hx := hm x List.mem_cons_self
    cases s with
    | nil =>
      simp only [List.flatMap_nil, List.nil_append, List.cons_prefix_cons, List.prefix_nil, reduceCtorEq,
        iff_false, not_and]
      rintro rfl
      cases hx
    | cons c s =>
      rcases quotedChar_eq c with hc | ⟨tail, hc, -⟩
      · rw [List.flatMap_cons, hc, List.singleton_append, List.cons_append, List.cons_prefix_cons,
          List.cons_prefix_cons, ih fun d hd => hm d (List.mem_cons_of_mem x hd)]
      · rw [List.flatMap_cons, hc, List.cons_append, List.cons_append, List.cons_prefix_cons,
          List.cons_prefix_cons]
        constructor
        · rintro ⟨rfl, -⟩
          cases hx
        · rintro ⟨rfl, -⟩
          obtain rfl := (List.cons.inj (hx.symm.trans hc)).1
          cases hx

lemma splitAt?_append_of_notMem {front : List Char} (t : List Char) (h : 'm' ∉ front) :
    splitAt? missingMarker.toList (front ++ t) = splitAt? missingMarker.toList t := by
  induction front with
  | nil => rfl
  | cons c front ih =>
    refine (if_neg fun hfirst => ?_).trans (ih (List.not_mem_of_not_mem_cons h))
    have hc : 'm' = c := (List.cons_prefix_cons.mp (List.isPrefixOf_iff_prefix.mp hfirst)).1
    exact h (hc ▸ List.mem_cons_self)

lemma splitAt?_quoted (s : List Char) :
    splitAt? missingMarker.toList (s.flatMap (quotedChar '"') ++ ['"']) =
      (splitAt? missingMarker.toList s).map fun rest => rest.flatMap (quotedChar '"') ++ ['"'] := by
  induction s with
  | nil => rfl
  | cons c s ih =>
    have hfirst := prefix_quoted_iff (s := c :: s) quotedChar_missingMarker
    by_cases hp : missingMarker.toList <+: c :: s
    · obtain ⟨rest, hrest⟩ := hp
      rw [← hrest, List.flatMap_append, flatMap_quotedChar quotedChar_missingMarker, List.append_assoc,
        splitAt?_append, splitAt?_append]
      rfl
    · have hsplit : splitAt? missingMarker.toList (c :: s) = splitAt? missingMarker.toList s :=
        if_neg fun h => hp (List.isPrefixOf_iff_prefix.mp h)
      rw [hsplit, ← ih]
      rcases quotedChar_eq c with hc | ⟨tail, hc, htail, -⟩
      · rw [List.flatMap_cons, hc] at hfirst ⊢
        exact if_neg fun h => hp (hfirst.mp (List.isPrefixOf_iff_prefix.mp h))
      · -- The marker begins with an `m`, which an escape does not have.
        rw [List.flatMap_cons, hc, List.append_assoc]
        have hescape : 'm' ∉ '\\' :: tail := by simp [htail]
        exact splitAt?_append_of_notMem _ hescape

lemma backquote_notMem_quoted {s : List Char} (h : '\x60' ∉ s) :
    '\x60' ∉ s.flatMap (quotedChar '"') := by
  intro hmem
  obtain ⟨c, hc, hq⟩ := List.mem_flatMap.mp hmem
  rcases quotedChar_eq c with hsame | ⟨tail, hescape, -, htail⟩
  · rw [hsame, List.mem_singleton] at hq
    exact h (hq ▸ hc)
  · rw [hescape] at hq
    rcases List.mem_cons.mp hq with hq | hq
    · exact absurd hq (by decide)
    · exact htail hq

/-- What a quoted text names is what the text names, as it is quoted. -/
lemma namedMissing?_quoteText (s : String) : namedMissing? (quoteText s) = (namedMissing? s).map
    fun name => String.ofList (name.toList.flatMap (quotedChar '"')) := by
  have hsplit : splitAt? missingMarker.toList (quoteText s).toList =
      splitAt? missingMarker.toList (s.toList.flatMap (quotedChar '"') ++ ['"']) := by
    rw [quoteText, String.toList_ofList, List.cons_append, ← List.singleton_append]
    exact splitAt?_append_of_notMem _ (by decide)
  unfold namedMissing?
  rw [hsplit, splitAt?_quoted, Option.bind_map, Option.map_bind]
  congr 1
  funext rest
  by_cases hmem : '\x60' ∈ rest
  · obtain ⟨name, after, rfl, hname⟩ := List.eq_append_cons_of_mem hmem
    have hbackquote := quotedChar_missingMarker '\x60' (by decide)
    have hquoted : (name ++ '\x60' :: after).flatMap (quotedChar '"') ++ ['"'] =
        name.flatMap (quotedChar '"') ++ '\x60' :: (after.flatMap (quotedChar '"') ++ ['"']) := by
      simp [hbackquote]
    simp only [Function.comp_apply, hquoted]
    rw [if_pos (by simp), if_pos (by simp), takeWhile_backquote hname,
      takeWhile_backquote (backquote_notMem_quoted hname), Option.map_some, String.toList_ofList]
  · have hquoted : '\x60' ∉ rest.flatMap (quotedChar '"') ++ ['"'] := by
      simp [backquote_notMem_quoted hmem]
    simp only [Function.comp_apply]
    rw [if_neg fun h => hquoted (List.contains_iff_mem.mp h),
      if_neg fun h => hmem (List.contains_iff_mem.mp h)]
    rfl

lemma quoteText_eq_iff {s name : String} : quoteText s = "\"" ++ name ++ "\"" ↔
    String.ofList (s.toList.flatMap (quotedChar '"')) = name := by
  rw [← String.toList_inj, ← String.toList_inj, quoteText]
  simp

lemma splitAt?_unexpected {place : Place} (hplace : '\x60' ∉ place.toList) (s : String) :
    splitAt? missingMarker.toList (Fault.unexpected place (some s)).message.toList =
      splitAt? missingMarker.toList (quoteText s).toList := by
  obtain ⟨before, hwords, hbefore⟩ := exists_toList_at hplace ("unexpected text " ++ quoteText s)
  obtain ⟨body, hbody⟩ : ∃ body, (quoteText s).toList = '"' :: body :=
    ⟨_, by rw [quoteText, String.toList_ofList, List.cons_append]⟩
  have hmem : '\x60' ∈ missingMarker.toList := by decide
  have hquote : '"' ∉ missingMarker.toList := by decide
  calc splitAt? missingMarker.toList (Fault.unexpected place (some s)).message.toList
      = splitAt? missingMarker.toList ((before ++ "unexpected text ".toList) ++ '"' :: body) := by
        rw [Fault.message, hwords, String.toList_append, hbody, List.append_assoc]
    _ = splitAt? missingMarker.toList body :=
        splitAt?_append_cons _ hmem (by simp [hbefore]) hquote
    _ = splitAt? missingMarker.toList ([] ++ '"' :: body) :=
        (splitAt?_append_cons [] hmem List.not_mem_nil hquote).symm
    _ = splitAt? missingMarker.toList (quoteText s).toList := by rw [hbody, List.nil_append]

/-- In the words about a place without a backquote, an entry is named by the text that they quote. -/
lemma names_unexpected_iff {place : Place} {found : Option String} {name : String}
    (hplace : '\x60' ∉ place.toList) : Names (Fault.unexpected place found).message name ↔
      ∃ s named, found = some s ∧ Names s named ∧ quoteText named = "\"" ++ name ++ "\"" := by
  cases found with
  | none =>
    obtain ⟨before, hwords, hbefore⟩ := exists_toList_at hplace "unexpected value"
    have hfree : '\x60' ∉ (Fault.unexpected place none).message.toList := by
      rw [Fault.message, hwords]
      simp [hbefore]
    simp only [reduceCtorEq, false_and, exists_false, iff_false]
    exact fun h => hfree h.backquote_mem
  | some s =>
    have hnamed : namedMissing? (Fault.unexpected place (some s)).message =
        namedMissing? (quoteText s) := by
      rw [namedMissing?, namedMissing?, splitAt?_unexpected hplace]
    rw [← namedMissing?_eq_some_iff, hnamed, namedMissing?_quoteText, Option.map_eq_some_iff]
    constructor
    · rintro ⟨named, hs, hname⟩
      exact ⟨s, named, rfl, namedMissing?_eq_some_iff.mp hs, quoteText_eq_iff.mpr hname⟩
    · rintro ⟨_, named, ⟨⟩, hs, hname⟩
      exact ⟨named, namedMissing?_eq_some_iff.mpr hs, quoteText_eq_iff.mp hname⟩

end Quoted

/-! ### Refusals -/

section Refusals

variable {document : String}

lemma parse_of_fault {fault : Fault} (hblank : Text.isBlankText document = false)
    (h : ofText decoder document = .error fault) : parse document = .error (refusal fault) := by
  rw [parse, hblank, h]
  rfl

lemma missing_ne_invalid (name words : String) :
    "Missing required field: " ++ name ≠ "Invalid YAML: " ++ words := by
  intro h
  have hchars := congrArg String.toList h
  simp at hchars

lemma refusal_eq_missing_iff {fault : Fault} {name : String} :
    refusal fault = .parse ("Missing required field: " ++ name) ↔ Names fault.message name := by
  rw [← namedMissing?_eq_some_iff]
  unfold refusal
  cases namedMissing? fault.message with
  | none => simp [(missing_ne_invalid _ _).symm]
  | some other => simp

lemma refusal_ne_empty (fault : Fault) : refusal fault ≠ .parse "Empty workflow definition" := by
  intro h
  unfold refusal at h
  split at h
  all_goals
    have hchars := congrArg String.toList (Error.parse.inj h)
    simp at hchars

lemma parse_eq_empty_iff : parse document = .error (.parse "Empty workflow definition") ↔
    Text.isBlankText document = true := by
  unfold parse
  split_ifs with hblank
  · simp [hblank]
  · simp only [hblank, Bool.false_eq_true, iff_false]
    intro h
    cases hdecode : ofText decoder document with
    | ok w =>
      rw [hdecode] at h
      cases h
    | error fault =>
      rw [hdecode] at h
      exact refusal_ne_empty fault (Except.error.inj h)

lemma parse_eq_missing_iff {name : String} :
    parse document = .error (.parse ("Missing required field: " ++ name)) ↔
      Text.isBlankText document = false ∧
        ∃ fault, ofText decoder document = .error fault ∧ Names fault.message name := by
  unfold parse
  split_ifs with hblank
  · simp only [hblank, Bool.true_eq_false, false_and, iff_false]
    intro h
    have hchars := congrArg String.toList (Error.parse.inj (Except.error.inj h))
    simp at hchars
  · simp only [hblank, true_and]
    cases ofText decoder document with
    | ok w => simp [Except.mapError]
    | error fault =>
      simp only [Except.mapError, Except.error.injEq, refusal_eq_missing_iff, exists_eq_left']

lemma lacksRequired_of_missing {place : Place} {name : String}
    (h : ofText decoder document = .error (.missing place name)) :
    LacksRequired document name ∧
      ∀ other, Names (Fault.missing place name).message other ↔ other = name := by
  rcases bind_eq_error_iff.mp h with hdecode | ⟨w, -, hrest⟩
  · obtain ⟨path, hpath, hlacks, hplace⟩ := decoder_misses _ _ _ _ _ _ hdecode
    have hnames := names_missing (hplace (by decide)) (backquote_notMem_required hpath)
    refine ⟨⟨path, hpath, hlacks⟩, fun other => ?_⟩
    rw [← namedMissing?_eq_some_iff] at hnames ⊢
    rw [hnames, Option.some.injEq, eq_comm]
  · split_ifs at hrest <;> cases hrest

/-- How it is told why a document is refused. -/
structure TellsWhy (document : String) : Prop where
  /-- A document of white space, and no other one, is said to be empty. -/
  empty : parse document = .error (.parse "Empty workflow definition") ↔
    Text.isBlankText document = true
  /-- An entry is said to be missing if that is the fault, and also if the words of another fault, by the
  place or by the text that they quote, name the entry. -/
  missing : ∀ name, parse document = .error (.parse ("Missing required field: " ++ name)) ↔
    Text.isBlankText document = false ∧
      ((∃ place, ofText decoder document = .error (.missing place name)) ∨
        ∃ place found, ofText decoder document = .error (.unexpected place found) ∧
          Names (Fault.unexpected place found).message name)
  /-- If that is the fault, then a mapping that has to have the entry lacks it. -/
  lacking : ∀ place name, ofText decoder document = .error (.missing place name) →
    LacksRequired document name
  /-- In words about a place without a backquote, the quoted text names the entry. -/
  quoted : ∀ place found, ofText decoder document = .error (.unexpected place found) →
    '\x60' ∉ place.toList → ∀ name, Names (Fault.unexpected place found).message name ↔
      ∃ s named, found = some s ∧ Names s named ∧ Text.quoteText named = "\"" ++ name ++ "\""
  /-- Every other document that is refused is said not to be YAML. -/
  invalid : ∀ fault, Text.isBlankText document = false → ofText decoder document = .error fault →
    (∀ name, parse document ≠ .error (.parse ("Missing required field: " ++ name))) →
      parse document = .error (.parse ("Invalid YAML: " ++ fault.message))

/-- An entry is said to be missing just if it is, or if the words of a fault that is something else name
one. -/
theorem parse_tellsWhy (document : String) : TellsWhy document where
  empty := parse_eq_empty_iff
  missing name := by
    rw [parse_eq_missing_iff]
    refine and_congr_right fun _ => ⟨?_, ?_⟩
    · rintro ⟨fault, hfault, hnames⟩
      cases fault with
      | unreadable => exact absurd hnames.backquote_mem (by decide)
      | missing place field =>
        obtain rfl := ((lacksRequired_of_missing hfault).2 name).mp hnames
        exact Or.inl ⟨place, hfault⟩
      | unexpected place found => exact Or.inr ⟨place, found, hfault, hnames⟩
    · rintro (⟨place, hfault⟩ | ⟨place, found, hfault, hnames⟩)
      · exact ⟨_, hfault, ((lacksRequired_of_missing hfault).2 name).mpr rfl⟩
      · exact ⟨_, hfault, hnames⟩
  lacking place name hfault := (lacksRequired_of_missing hfault).1
  quoted place found _ hplace name := names_unexpected_iff hplace
  invalid fault hblank hfault hnone := by
    have hparse := parse_of_fault hblank hfault
    rw [hparse, refusal]
    cases hnamed : namedMissing? fault.message with
    | none => rfl
    | some name =>
      refine absurd (parse_eq_missing_iff.mpr ⟨hblank, fault, hfault, ?_⟩) (hnone name)
      exact namedMissing?_eq_some_iff.mp hnamed

end Refusals

/-- A document with a text where a number is wanted. -/
def misleading : String :=
  Text.asLines ["metadata:", "  name: a", "spec:", "  cluster:",
    "    maxSize: \"missing field \x60foo\x60\""]

/-- A document that stops being YAML after an identity without a name. -/
def brokenOff : String := Text.asLines ["metadata:", "  namespace: lab", "spec: \"broken"]

def plainWord (s : String) : Node := .scalar none none .plain s

def keyTokens (name : String) : List Token := [.key, .scalar .plain name.toList, .value]

lemma tokens_misleading : tokens misleading.toList =
    .blockMappingStart :: keyTokens "metadata" ++
      .blockMappingStart :: keyTokens "name" ++ [.scalar .plain "a".toList, .blockEnd] ++
      keyTokens "spec" ++ .blockMappingStart :: keyTokens "cluster" ++
        .blockMappingStart :: keyTokens "maxSize" ++
          [.scalar .doubleQuoted "missing field \x60foo\x60".toList] ++
      [.blockEnd, .blockEnd, .blockEnd, .streamEnd] := by
  rw [tokens, if_pos (by decide +kernel)]
  exact @Reader.finish_of_finishWithin? 60 _ _ (by decide +kernel)

lemma tokens_brokenOff : tokens brokenOff.toList =
    .blockMappingStart :: keyTokens "metadata" ++
      .blockMappingStart :: keyTokens "namespace" ++ [.scalar .plain "lab".toList, .blockEnd] ++
      keyTokens "spec" := by
  rw [tokens, if_pos (by decide +kernel)]
  exact @Reader.finish_of_finishWithin? 60 _ _ (by decide +kernel)

lemma document_misleading : Document.ofText misleading =
    ⟨.mapping none none [
      (plainWord "metadata", .mapping none none [(plainWord "name", plainWord "a")]),
      (plainWord "spec", .mapping none none [(plainWord "cluster", .mapping none none [
        (plainWord "maxSize", .scalar none none .doubleQuoted "missing field \x60foo\x60")])])],
      true⟩ := by
  rw [Document.ofText, tokens_misleading]
  simp only [Document.ofTokens, keyTokens, String.reduceToList, List.cons_append, List.nil_append,
    Document.ofRoot, readNode, readProperties, if_true, Option.map_none, Remaining.goOn,
    Option.getD_none, readEntries, readOptional, endsBlockNode, Bool.false_eq_true, if_false,
    reduceCtorEq, List.length_cons, List.length_nil, Nat.reduceAdd, Nat.reduceLT, reduceDIte,
    readValue, Document.endsText]
  rfl

lemma document_brokenOff : Document.ofText brokenOff =
    ⟨.mapping none none [
      (plainWord "metadata", .mapping none none [(plainWord "namespace", plainWord "lab")]),
      (plainWord "spec", .broken), (.broken, .broken)], false⟩ := by
  rw [Document.ofText, tokens_brokenOff]
  simp only [Document.ofTokens, keyTokens, String.reduceToList, List.cons_append, List.nil_append,
    Document.ofRoot, readNode, readProperties, if_true, Option.map_none, Remaining.goOn,
    Option.getD_none, readEntries, readOptional, endsBlockNode, Bool.false_eq_true, if_false,
    reduceCtorEq, List.length_cons, List.length_nil, Nat.reduceAdd, Nat.reduceLT, reduceDIte,
    readValue, Document.endsText]
  rfl

lemma not_lacksRequired {document name : String} (h : name ∉ ["metadata", "name", "metric", "action"]) :
    ¬ LacksRequired document name := by
  rintro ⟨path, hpath, -⟩
  cases hpath <;> exact h (by decide)

/-- A text that is quoted is taken for the name of a missing entry. That an entry is missing is also said
of a document that is not YAML to its end. -/
theorem quoted_text_is_taken_for_a_name :
    (parse misleading = .error (.parse "Missing required field: foo") ∧
      (Document.ofText misleading).complete = true ∧ ¬ LacksRequired misleading "foo") ∧
    parse brokenOff = .error (.parse "Missing required field: name") ∧
      (Document.ofText brokenOff).complete = false := by
  have hmisleading : ofText decoder misleading =
      .error (.unexpected "spec.cluster.maxSize" (some "missing field \x60foo\x60")) := by
    rw [ofText, document_misleading]
    rfl
  have hbrokenOff : ofText decoder brokenOff = .error (.missing "metadata" "name") := by
    rw [ofText, document_brokenOff]
    rfl
  refine ⟨⟨?_, ?_, not_lacksRequired (by decide)⟩, ?_, ?_⟩
  · rw [parse_of_fault (by decide +kernel) hmisleading]
    rfl
  · rw [document_misleading]
  · rw [parse_of_fault (by decide +kernel) hbrokenOff]
    rfl
  · rw [document_brokenOff]

end WorkflowOperator.Workflow
