import Mathlib.Data.List.Nodup
import Mathlib.Data.Nat.Find
import WorkflowOperator.Proofs.Store.Collection

/-!
# Transitive ownership

Owner references are followed from an identifier to the objects that name it, from these to the
objects that name them, and so on, whatever cycles and dead ends there are on the way. A collection
takes exactly the objects that are reached, the nearest first, and leaves a store in which none of
what was taken is named.
-/

namespace WorkflowOperator.Store

section Ownership
variable (objects : SortedMap ObjectKey Resource)

/-- Whether there is an object with this key that names an identifier as an owner. -/
def Names (key : ObjectKey) (uid : String) : Prop :=
  ∃ r, objects.get? key = some r ∧ ∃ o ∈ r.metadata.owners, o.uid = uid

/-- Whether there is an object with this key that bears an identifier. -/
def Bears (key : ObjectKey) (uid : String) : Prop :=
  ∃ r, objects.get? key = some r ∧ r.metadata.uid = some uid

/-- What an identifier owns: the least set of keys with the objects that name the identifier and with
those that name an object of the set. -/
inductive Owns (uid : String) : ObjectKey → Prop
  | directly {key : ObjectKey} (h : Names objects key uid) : Owns uid key
  | through {between key : ObjectKey} {uid' : String} (howned : Owns uid between)
    (hbears : Bears objects between uid') (h : Names objects key uid') : Owns uid key

/-- What an identifier owns through a chain of so many other objects. -/
inductive OwnsAcross (uid : String) : Nat → ObjectKey → Prop
  | directly {key : ObjectKey} (h : Names objects key uid) : OwnsAcross uid 0 key
  | through {n : Nat} {between key : ObjectKey} {uid' : String} (howned : OwnsAcross uid n between)
    (hbears : Bears objects between uid') (h : Names objects key uid') : OwnsAcross uid (n + 1) key

/-- Whether the shortest chain from an identifier to what it owns has so many other objects. -/
def AtDistance (uid : String) (n : Nat) (key : ObjectKey) : Prop :=
  OwnsAcross objects uid n key ∧ ∀ m < n, ¬ OwnsAcross objects uid m key

end Ownership

variable {objects left : SortedMap ObjectKey Resource} {uid : String} {uids : List String} {n : Nat}
  {key : ObjectKey} {r : Resource}

lemma owns_iff_exists_ownsAcross : Owns objects uid key ↔ ∃ n, OwnsAcross objects uid n key := by
  constructor
  · intro h
    induction h with
    | directly h => exact ⟨0, .directly h⟩
    | through _ hbears h ih =>
      obtain ⟨n, hn⟩ := ih
      exact ⟨n + 1, .through hn hbears h⟩
  · rintro ⟨n, h⟩
    induction h with
    | directly h => exact .directly h
    | through _ hbears h ih => exact .through ih hbears h

lemma owns_iff_exists_atDistance : Owns objects uid key ↔ ∃ n, AtDistance objects uid n key := by
  rw [owns_iff_exists_ownsAcross]
  constructor
  · intro h
    classical
    exact ⟨Nat.find h, Nat.find_spec h, fun m hm => Nat.find_min h hm⟩
  · rintro ⟨n, h⟩
    exact ⟨n, h.1⟩

lemma AtDistance.unique {m : Nat} (h : AtDistance objects uid n key)
    (h' : AtDistance objects uid m key) : n = m := by
  rcases Nat.lt_trichotomy n m with hlt | heq | hlt
  · exact absurd h.1 (h'.2 n hlt)
  · exact heq
  · exact absurd h'.1 (h.2 m hlt)

lemma atDistance_iff : AtDistance objects uid n key ↔
    (∀ m < n, ¬ OwnsAcross objects uid m key) ∧ ∃ m ≤ n, OwnsAcross objects uid m key := by
  constructor
  · rintro ⟨hown, hbefore⟩
    exact ⟨hbefore, n, le_rfl, hown⟩
  · rintro ⟨hbefore, m, hm, hown⟩
    have hmn : m = n := by
      by_contra hne
      exact hbefore m (by omega) hown
    exact ⟨hmn ▸ hown, hbefore⟩

lemma ownsAcross_lt_of_none_atDistance (hnone : ∀ key, ¬ AtDistance objects uid n key) {m : Nat}
    (h : OwnsAcross objects uid m key) : ∃ m < n, OwnsAcross objects uid m key := by
  have hnear : ∀ {key : ObjectKey}, (∃ m ≤ n, OwnsAcross objects uid m key) →
      ∃ m < n, OwnsAcross objects uid m key := by
    intro key hle
    by_contra hbefore
    push Not at hbefore
    exact hnone key (atDistance_iff.mpr ⟨hbefore, hle⟩)
  induction h with
  | directly h => exact hnear ⟨0, Nat.zero_le n, .directly h⟩
  | through _ hbears h ih =>
    obtain ⟨m, hm, hown⟩ := ih
    exact hnear ⟨m + 1, hm, .through hown hbears h⟩

lemma isOwnedBy_iff_names (h : objects.get? key = some r) :
    r.isOwnedBy uids = true ↔ ∃ uid ∈ uids, Names objects key uid := by
  simp only [Resource.isOwnedBy, List.any_eq_true, List.contains_eq_mem, decide_eq_true_eq]
  constructor
  · rintro ⟨o, ho, hmem⟩
    exact ⟨o.uid, hmem, r, h, o, ho, rfl⟩
  · rintro ⟨uid, hmem, r', hr', o, ho, rfl⟩
    rw [h, Option.some.injEq] at hr'
    exact ⟨o, hr' ▸ ho, hmem⟩

/-! ### The rounds of a collection -/

/-- Where a collection stands after so many rounds: it has taken what its identifier owns across fewer
objects, and it goes on with the identifiers of these. -/
structure AfterRounds (objects : SortedMap ObjectKey Resource) (uid : String) (n : Nat)
    (uids : List String) (left : SortedMap ObjectKey Resource) : Prop where
  mem_uids : ∀ uid', uid' ∈ uids ↔
    uid' = uid ∨ ∃ m < n, ∃ key, OwnsAcross objects uid m key ∧ Bears objects key uid'
  get?_left : ∀ key r, left.get? key = some r ↔
    objects.get? key = some r ∧ ∀ m < n, ¬ OwnsAcross objects uid m key

lemma afterRounds_zero (objects : SortedMap ObjectKey Resource) (uid : String) :
    AfterRounds objects uid 0 [uid] objects where
  mem_uids := by simp
  get?_left := by simp

/-- The next round finds what is owned across at most as many objects as there were rounds. -/
lemma AfterRounds.isOwnedBy_iff (hs : AfterRounds objects uid n uids left)
    (h : objects.get? key = some r) :
    r.isOwnedBy uids = true ↔ ∃ m ≤ n, OwnsAcross objects uid m key := by
  rw [isOwnedBy_iff_names h]
  constructor
  · rintro ⟨uid', hmem, hnames⟩
    rcases (hs.mem_uids uid').mp hmem with rfl | ⟨m, hm, between, hown, hbears⟩
    · exact ⟨0, Nat.zero_le n, .directly hnames⟩
    · exact ⟨m + 1, hm, .through hown hbears hnames⟩
  · rintro ⟨m, hm, hown⟩
    cases hown with
    | directly hnames => exact ⟨uid, (hs.mem_uids uid).mpr (Or.inl rfl), hnames⟩
    | @through m between _ uid' hown hbears hnames =>
      exact ⟨uid', (hs.mem_uids uid').mpr (Or.inr ⟨m, hm, between, hown, hbears⟩), hnames⟩

lemma AfterRounds.get?_owned (hs : AfterRounds objects uid n uids left) (key : ObjectKey)
    (r : Resource) : (owned uids left).get? key = some r ↔
      objects.get? key = some r ∧ AtDistance objects uid n key := by
  rw [Store.get?_owned, Option.filter_eq_some_iff, hs.get?_left, and_assoc, atDistance_iff]
  refine and_congr_right fun h => ?_
  rw [hs.isOwnedBy_iff h]

lemma AfterRounds.mem_keys_owned (hs : AfterRounds objects uid n uids left) (key : ObjectKey) :
    key ∈ (owned uids left).keys ↔ AtDistance objects uid n key := by
  simp only [SortedMap.mem_keys_iff, hs.get?_owned]
  constructor
  · rintro ⟨r, -, hdist⟩
    exact hdist
  · intro hdist
    have hthere : ∃ r, objects.get? key = some r := by
      cases hdist.1 with
      | directly h => exact h.imp fun r hr => hr.1
      | through _ _ h => exact h.imp fun r hr => hr.1
    obtain ⟨r, hr⟩ := hthere
    exact ⟨r, hr, hdist⟩

lemma AfterRounds.next (hs : AfterRounds objects uid n uids left) :
    AfterRounds objects uid (n + 1) (uids ++ (owned uids left).values.filterMap (·.metadata.uid))
      (notOwned uids left) where
  mem_uids := by
    intro uid'
    simp only [List.mem_append, hs.mem_uids, List.mem_filterMap, SortedMap.mem_values_iff,
      hs.get?_owned]
    constructor
    · rintro ((rfl | ⟨m, hm, hkey⟩) | ⟨r, ⟨key, hr, hdist⟩, huid⟩)
      · exact Or.inl rfl
      · exact Or.inr ⟨m, by omega, hkey⟩
      · exact Or.inr ⟨n, by omega, key, hdist.1, r, hr, huid⟩
    · rintro (rfl | ⟨m, hm, key, hown, hbears⟩)
      · exact Or.inl (Or.inl rfl)
      · by_cases hbefore : ∃ m < n, OwnsAcross objects uid m key
        · obtain ⟨m', hm', hown'⟩ := hbefore
          exact Or.inl (Or.inr ⟨m', hm', key, hown', hbears⟩)
        · -- Owned across no fewer objects, it is among those that this round takes.
          push Not at hbefore
          obtain ⟨r, hr, huid⟩ := hbears
          exact Or.inr ⟨r, ⟨key, hr, atDistance_iff.mpr ⟨hbefore, m, by omega, hown⟩⟩, huid⟩
  get?_left := by
    intro key r
    rw [Store.get?_notOwned, Option.filter_eq_some_iff, hs.get?_left, and_assoc]
    refine and_congr_right fun h => ?_
    rw [Bool.not_eq_true', Bool.eq_false_iff, Ne, hs.isOwnedBy_iff h]
    constructor
    · rintro ⟨-, hnone⟩ m hm hown
      exact hnone ⟨m, by omega, hown⟩
    · intro hnone
      exact ⟨fun m hm => hnone m (by omega), fun ⟨m, hm, hown⟩ => hnone m (by omega) hown⟩

/-- Lists of keys that are the rounds of a collection from a distance on: each has the keys at its
distance in order, none is empty, and beyond them there is nothing. -/
structure AreRounds (objects : SortedMap ObjectKey Resource) (uid : String) (n : Nat)
    (rounds : List (List ObjectKey)) : Prop where
  ne_nil : ∀ round ∈ rounds, round ≠ []
  inOrder : ∀ round ∈ rounds, round.Pairwise fun a b => compare a b = .lt
  atDistance_iff : ∀ i key,
    (∃ round, rounds[i]? = some round ∧ key ∈ round) ↔ AtDistance objects uid (n + i) key

variable {rounds : List (List ObjectKey)}

lemma AreRounds.mem_flatten (h : AreRounds objects uid 0 rounds) (key : ObjectKey) :
    key ∈ rounds.flatten ↔ Owns objects uid key := by
  rw [owns_iff_exists_atDistance, List.mem_flatten]
  constructor
  · rintro ⟨round, hround, hkey⟩
    obtain ⟨i, hi⟩ := List.mem_iff_getElem?.mp hround
    exact ⟨0 + i, (h.atDistance_iff i key).mp ⟨round, hi, hkey⟩⟩
  · rintro ⟨i, hdist⟩
    rw [← Nat.zero_add i] at hdist
    obtain ⟨round, hround, hkey⟩ := (h.atDistance_iff i key).mpr hdist
    exact ⟨round, List.mem_of_getElem? hround, hkey⟩

lemma AreRounds.nodup_flatten (h : AreRounds objects uid n rounds) : rounds.flatten.Nodup := by
  rw [List.nodup_flatten]
  refine ⟨fun round hround => ?_, List.pairwise_iff_getElem.mpr ?_⟩
  · refine (h.inOrder round hround).imp ?_
    rintro a b hlt rfl
    have hself : compare a a = .eq := Std.ReflCmp.compare_self
    rw [hself] at hlt
    cases hlt
  · intro i j hi hj hij key hkeyi hkeyj
    have hdisti := (h.atDistance_iff i key).mp ⟨_, List.getElem?_eq_getElem hi, hkeyi⟩
    have hdistj := (h.atDistance_iff j key).mp ⟨_, List.getElem?_eq_getElem hj, hkeyj⟩
    have := hdisti.unique hdistj
    omega

lemma AreRounds.cons {round : List ObjectKey} (hne : round ≠ [])
    (horder : round.Pairwise fun a b => compare a b = .lt)
    (hdist : ∀ key, key ∈ round ↔ AtDistance objects uid n key)
    (h : AreRounds objects uid (n + 1) rounds) : AreRounds objects uid n (round :: rounds) where
  ne_nil := List.forall_mem_cons.mpr ⟨hne, h.ne_nil⟩
  inOrder := List.forall_mem_cons.mpr ⟨horder, h.inOrder⟩
  atDistance_iff := by
    intro i key
    cases i with
    | zero => simpa using hdist key
    | succ i => simpa [Nat.add_assoc, Nat.add_comm 1] using h.atDistance_iff i key

lemma AreRounds.nil (hnone : ∀ key, ¬ AtDistance objects uid n key) :
    AreRounds objects uid n [] where
  ne_nil := by simp
  inOrder := by simp
  atDistance_iff := by
    intro i key
    constructor
    · rintro ⟨round, hround, -⟩
      cases hround
    · intro hdist
      obtain ⟨m, hm, hown⟩ := ownsAcross_lt_of_none_atDistance hnone hdist.1
      exact absurd hown (hdist.2 m (by omega))

lemma AfterRounds.get?_left_of_none (hs : AfterRounds objects uid n uids left)
    (hnone : ∀ key, ¬ AtDistance objects uid n key) (key : ObjectKey) (r : Resource) :
    left.get? key = some r ↔ objects.get? key = some r ∧ ¬ Owns objects uid key := by
  rw [hs.get?_left, owns_iff_exists_ownsAcross, not_exists]
  refine and_congr_right fun _ => ⟨fun hnot m hown => ?_, fun hnot m _ => hnot m⟩
  obtain ⟨m', hm', hown'⟩ := ownsAcross_lt_of_none_atDistance hnone hown
  exact hnot m' hm' hown'

/-- What the rounds from one on take, and what the last of them leaves. -/
lemma collectRounds_of_afterRounds : ∀ {n : Nat}, AfterRounds objects uid n uids left →
    (∃ rounds, (collectRounds uids left).1 = rounds.flatten ∧ AreRounds objects uid n rounds) ∧
      ∀ key r, (collectRounds uids left).2.get? key = some r ↔
        objects.get? key = some r ∧ ¬ Owns objects uid key := by
  -- The count of rounds goes along with the recursion, so it stays general in the induction.
  fun_induction collectRounds uids left
  case case1 uids left hnone =>
    intro n hs
    have hempty : ∀ key, ¬ AtDistance objects uid n key := by
      intro key hdist
      obtain ⟨r, hr⟩ := (SortedMap.mem_keys_iff _ _).mp ((hs.mem_keys_owned key).mpr hdist)
      rw [SortedMap.get?_of_size_eq_zero hnone] at hr
      cases hr
    exact ⟨⟨[], rfl, .nil hempty⟩, hs.get?_left_of_none hempty⟩
  case case2 uids left hsome found keys rest heq ih =>
    intro n hs
    rw [heq] at ih
    obtain ⟨⟨rounds, hkeys, hrounds⟩, hleft⟩ := ih hs.next
    have hfound : found.keys ≠ [] := by
      rwa [Ne, ← List.length_eq_zero_iff, SortedMap.keys, List.length_map]
    refine ⟨⟨found.keys :: rounds, ?_, .cons hfound found.pairwise_keys hs.mem_keys_owned hrounds⟩,
      hleft⟩
    rw [List.flatten_cons, ← hkeys]

/-! ### Collection from a store -/

variable {s : Store}

lemma mem_collect_iff : key ∈ (s.collect uid).1 ↔ Owns s.objects uid key := by
  obtain ⟨⟨rounds, hkeys, hrounds⟩, -⟩ :=
    collectRounds_of_afterRounds (afterRounds_zero s.objects uid)
  change key ∈ (collectRounds [uid] s.objects).1 ↔ _
  rw [hkeys, hrounds.mem_flatten]

lemma nodup_collect : (s.collect uid).1.Nodup := by
  obtain ⟨⟨rounds, hkeys, hrounds⟩, -⟩ :=
    collectRounds_of_afterRounds (afterRounds_zero s.objects uid)
  change (collectRounds [uid] s.objects).1.Nodup
  rw [hkeys]
  exact hrounds.nodup_flatten

lemma get?_collect_eq_some_iff : (s.collect uid).2.objects.get? key = some r ↔
    s.objects.get? key = some r ∧ ¬ Owns s.objects uid key :=
  (collectRounds_of_afterRounds (afterRounds_zero s.objects uid)).2 key r

lemma get?_collect (s : Store) (uid : String) (key : ObjectKey) :
    (s.collect uid).2.objects.get? key =
      if key ∈ (s.collect uid).1 then none else s.objects.get? key := by
  apply Option.ext
  intro r
  rw [get?_collect_eq_some_iff]
  by_cases howned : Owns s.objects uid key
  · simp [mem_collect_iff, howned]
  · simp [mem_collect_iff, howned]

lemma not_names_collect {uid' : String}
    (h : uid' = uid ∨ ∃ taken, Owns s.objects uid taken ∧ Bears s.objects taken uid') :
    ¬ Names (s.collect uid).2.objects key uid' := by
  rintro ⟨r, hleft, hnames⟩
  obtain ⟨hr, hnot⟩ := get?_collect_eq_some_iff.mp hleft
  rcases h with rfl | ⟨taken, howned, hbears⟩
  · exact hnot (.directly ⟨r, hr, hnames⟩)
  · exact hnot (.through howned hbears ⟨r, hr, hnames⟩)

lemma collect_of_not_names (h : ∀ key, ¬ Names s.objects key uid) : s.collect uid = ([], s) := by
  have hsize : (owned [uid] s.objects).size = 0 := by
    rw [SortedMap.size_eq_zero_iff]
    intro key
    rw [get?_owned, Option.filter_eq_none_iff]
    intro r hr howned
    obtain ⟨uid', hmem, hnames⟩ := (isOwnedBy_iff_names hr).mp howned
    rw [List.mem_singleton] at hmem
    exact h key (hmem ▸ hnames)
  rw [collect, collectRounds, dif_pos hsize]

/-- A collection removes exactly what its identifier owns, each key once, by rounds of distance and in
each round in order. All else is as it was, nothing that is left names the identifier or what was
removed, and a second collection finds nothing. -/
theorem collect_takes_exactly_owned (s : Store) (uid : String) :
    let removed := (s.collect uid).1
    let after := (s.collect uid).2
    (∀ key, key ∈ removed ↔ Owns s.objects uid key) ∧
    removed.Nodup ∧
    (∃ rounds, removed = rounds.flatten ∧ AreRounds s.objects uid 0 rounds) ∧
    (∀ key, after.objects.get? key = if key ∈ removed then none else s.objects.get? key) ∧
    after.journal = s.journal ∧
    (∀ key, ¬ Names after.objects key uid) ∧
    (∀ taken ∈ removed, ∀ uid', Bears s.objects taken uid' →
      ∀ key, ¬ Names after.objects key uid') ∧
    after.collect uid = ([], after) := by
  intro removed after
  have hgone : ∀ key, ¬ Names after.objects key uid := fun key => not_names_collect (Or.inl rfl)
  refine ⟨fun key => mem_collect_iff, nodup_collect,
    (collectRounds_of_afterRounds (afterRounds_zero s.objects uid)).1, s.get?_collect uid, rfl, hgone,
    ?_, collect_of_not_names hgone⟩
  intro taken htaken uid' hbears key
  exact not_names_collect (Or.inr ⟨taken, mem_collect_iff.mp htaken, hbears⟩)

end WorkflowOperator.Store
