import Mathlib.Data.List.Infix
import WorkflowOperator.Proofs.Converge.Effect

/-!
# Stores filled up to a front

Passes toward one workflow create what a store lacks of the wanted objects in the order in which these
are wanted. So whenever they stop, the store has gained what it lacked of the first wanted objects up
to some front, and nothing else. Filling it again up to a later front adds what is between the two, as
if it had been filled up to the later front at once.
-/

namespace WorkflowOperator

section Fronts
variable {stamps : Nat → Stamp} {owner : OwnerReference} {ws : List Wanted} {s₀ : Store}

lemma lacking_append (s : Store) (ws vs : List Wanted) :
    s.lacking (ws ++ vs) = s.lacking ws ++ s.lacking vs :=
  List.filter_append _ _

lemma madeFor_append (ws vs : List Wanted) :
    madeFor owner (ws ++ vs) = madeFor owner ws ++ madeFor owner vs :=
  List.filterMap_append

lemma madeFor_singleton {w : Wanted} {r : Resource} (h : w.object = .ok r) :
    madeFor owner [w] = [r.withOwner owner] := by
  simp [madeFor, h, Except.toOption]

lemma keys_madeFor {vs : List Wanted} (h : ∀ v ∈ vs, ∃ r, v.object = .ok r) :
    (madeFor owner vs).map Resource.key = vs.map Wanted.key := by
  induction vs with
  | nil => rfl
  | cons v rest ih =>
    obtain ⟨r, hr⟩ := h v List.mem_cons_self
    have hrest := ih fun u hu => h u (List.mem_cons_of_mem _ hu)
    have hcons : madeFor owner (v :: rest) = r.withOwner owner :: madeFor owner rest := by
      rw [← List.singleton_append, madeFor_append, madeFor_singleton hr, List.singleton_append]
    rw [hcons, List.map_cons, List.map_cons, hrest, Resource.key_withOwner, v.key_eq r hr]

lemma contains_front (hmake : ∀ v ∈ ws, ∃ r, v.object = .ok r) {front : List Wanted}
    (hfront : front <+: ws) (key : ObjectKey) :
    (s₀.putAll stamps (madeFor owner (s₀.lacking front))).contains key = true ↔
      key ∈ (s₀.lacking front).map Wanted.key ∨ s₀.contains key = true := by
  rw [Store.contains_putAll, keys_madeFor]
  exact fun v hv => hmake v (hfront.subset (List.mem_of_mem_filter hv))

lemma contains_of_mem_front (hmake : ∀ v ∈ ws, ∃ r, v.object = .ok r) {front : List Wanted}
    (hfront : front <+: ws) {v : Wanted} (hv : v ∈ front) :
    (s₀.putAll stamps (madeFor owner (s₀.lacking front))).contains v.key = true := by
  rw [contains_front hmake hfront]
  by_cases hs : s₀.contains v.key = true
  · exact Or.inr hs
  · refine Or.inl (List.mem_map_of_mem (List.mem_filter.mpr ⟨hv, ?_⟩))
    simpa using hs

lemma lacking_within_front (hmake : ∀ v ∈ ws, ∃ r, v.object = .ok r) {front past : List Wanted}
    (hfront : front <+: ws) (hpast : past <+: front) :
    (s₀.putAll stamps (madeFor owner (s₀.lacking front))).lacking past = [] := by
  apply List.filter_eq_nil_iff.mpr
  intro v hv
  simp [contains_of_mem_front hmake hfront (hpast.subset hv)]

lemma lacking_beyond_front (hnodup : (ws.map Wanted.key).Nodup)
    (hmake : ∀ v ∈ ws, ∃ r, v.object = .ok r) {front more : List Wanted}
    (hmore : front ++ more <+: ws) :
    (s₀.putAll stamps (madeFor owner (s₀.lacking front))).lacking more = s₀.lacking more := by
  have hfront : front <+: ws := (List.prefix_append front more).trans hmore
  have hkeys : ((front ++ more).map Wanted.key).Nodup :=
    hnodup.sublist (hmore.sublist.map Wanted.key)
  rw [List.map_append, List.nodup_append] at hkeys
  apply List.filter_congr
  intro v hv
  have hnew : v.key ∉ (s₀.lacking front).map Wanted.key := by
    intro hmem
    obtain ⟨u, hu, huv⟩ := List.mem_map.mp hmem
    exact hkeys.2.2 _ (List.mem_map_of_mem (List.mem_of_mem_filter hu)) _ (List.mem_map_of_mem hv) huv
  have hsame : (s₀.putAll stamps (madeFor owner (s₀.lacking front))).contains v.key = true ↔ _ :=
    contains_front hmake hfront v.key
  rw [or_iff_right hnew, ← Bool.eq_iff_iff] at hsame
  rw [hsame]

/-- Wanted objects after the front that are in the store were there from the start. -/
lemma lacking_after_front (hnodup : (ws.map Wanted.key).Nodup)
    (hmake : ∀ v ∈ ws, ∃ r, v.object = .ok r) (front : List Wanted) {more : List Wanted}
    (hmore : front ++ more <+: ws)
    (hthere : ∀ v ∈ more,
      (s₀.putAll stamps (madeFor owner (s₀.lacking front))).contains v.key = true) :
    s₀.lacking more = [] := by
  have hsame : (s₀.putAll stamps (madeFor owner (s₀.lacking front))).lacking more = _ :=
    lacking_beyond_front hnodup hmake hmore
  rw [← hsame]
  apply List.filter_eq_nil_iff.mpr
  intro v hv
  simp [hthere v hv]

lemma lacking_concat (hnodup : (ws.map Wanted.key).Nodup)
    (hmake : ∀ v ∈ ws, ∃ r, v.object = .ok r) {front past : List Wanted} {w : Wanted}
    (hfront : front <+: ws) (hpastw : past ++ [w] <+: ws)
    (hpast : ∀ v ∈ past,
      (s₀.putAll stamps (madeFor owner (s₀.lacking front))).contains v.key = true)
    (hs : (s₀.putAll stamps (madeFor owner (s₀.lacking front))).contains w.key = false) :
    s₀.lacking (past ++ [w]) = s₀.lacking front ++ [w] := by
  have hwfront : w ∉ front := by
    intro hmem
    rw [contains_of_mem_front hmake hfront hmem] at hs
    cases hs
  have hfp : front <+: past := by
    rcases List.prefix_or_prefix_of_prefix hfront hpastw with hle | hle
    · rcases List.prefix_concat_iff.mp hle with rfl | hle
      · exact absurd (List.mem_append_right past (List.mem_singleton_self w)) hwfront
      · exact hle
    · exact absurd (hle.subset (List.mem_append_right past (List.mem_singleton_self w))) hwfront
  obtain ⟨mid, rfl⟩ := hfp
  have hmid : s₀.lacking mid = [] := by
    apply lacking_after_front hnodup hmake front
    · exact (List.prefix_append (front ++ mid) [w]).trans hpastw
    · exact fun v hv => hpast v (List.mem_append_right front hv)
  have hw₀ : s₀.contains w.key = false := by
    rw [Bool.eq_false_iff]
    intro hw
    rw [(contains_front hmake hfront w.key).mpr (Or.inr hw)] at hs
    cases hs
  rw [lacking_append, lacking_append, hmid]
  simp [Store.lacking, hw₀]

lemma lacking_front {front : List Wanted} {s : Store}
    (hnodup : (ws.map Wanted.key).Nodup) (hmake : ∀ v ∈ ws, ∃ r, v.object = .ok r)
    (hfront : front <+: ws)
    (hthere : ∀ v ∈ ws, (s.putAll stamps (madeFor owner (s.lacking front))).contains v.key = true) :
    s.lacking front = s.lacking ws := by
  obtain ⟨more, rfl⟩ := hfront
  have hmore : s.lacking more = [] :=
    lacking_after_front hnodup hmake front List.prefix_rfl
      fun v hv => hthere v (List.mem_append_right front hv)
  rw [lacking_append, hmore, List.append_nil]

/-! ### Filling step by step -/

/-- Whether a store is the given one with what that lacked of the wanted objects up to some front. -/
def Store.FilledFrom (stamps : Nat → Stamp) (owner : OwnerReference) (ws : List Wanted)
    (s₀ s : Store) : Prop :=
  ∃ front, front <+: ws ∧ s = s₀.putAll stamps (madeFor owner (s₀.lacking front))

lemma fill_further (hnodup : (ws.map Wanted.key).Nodup) (hmake : ∀ v ∈ ws, ∃ r, v.object = .ok r)
    {front more : List Wanted} (hmore : front ++ more <+: ws) :
    let s := s₀.putAll stamps (madeFor owner (s₀.lacking front))
    s.putAll stamps (madeFor owner (s.lacking (front ++ more))) =
      s₀.putAll stamps (madeFor owner (s₀.lacking (front ++ more))) := by
  intro s
  have hfront : front <+: ws := (List.prefix_append front more).trans hmore
  have hpast : s.lacking front = [] := lacking_within_front hmake hfront List.prefix_rfl
  have hrest : s.lacking more = s₀.lacking more := lacking_beyond_front hnodup hmake hmore
  rw [lacking_append, hpast, hrest, List.nil_append, lacking_append, madeFor_append,
    Store.putAll_append]

lemma Store.FilledFrom.refl (s : Store) : s.FilledFrom stamps owner ws s :=
  ⟨[], List.nil_prefix, rfl⟩

lemma Store.FilledFrom.trans (hnodup : (ws.map Wanted.key).Nodup)
    (hmake : ∀ v ∈ ws, ∃ r, v.object = .ok r) {s s' : Store}
    (h : s₀.FilledFrom stamps owner ws s) (h' : s.FilledFrom stamps owner ws s') :
    s₀.FilledFrom stamps owner ws s' := by
  obtain ⟨front, hfront, rfl⟩ := h
  obtain ⟨front', hfront', rfl⟩ := h'
  -- Of two fronts one continues the other; filling up to the shorter again does nothing.
  rcases List.prefix_or_prefix_of_prefix hfront hfront' with hle | hle
  · obtain ⟨more, rfl⟩ := hle
    exact ⟨front ++ more, hfront', fill_further hnodup hmake hfront'⟩
  · refine ⟨front, hfront, ?_⟩
    rw [lacking_within_front hmake hfront hle]
    rfl

/-- However far a store has been filled, filling it to the end leaves what filling it at once does. -/
lemma Store.FilledFrom.complete (hnodup : (ws.map Wanted.key).Nodup)
    (hmake : ∀ v ∈ ws, ∃ r, v.object = .ok r) {s : Store} (h : s₀.FilledFrom stamps owner ws s) :
    s.putAll stamps (madeFor owner (s.lacking ws)) =
      s₀.putAll stamps (madeFor owner (s₀.lacking ws)) := by
  obtain ⟨front, ⟨more, rfl⟩, rfl⟩ := h
  exact fill_further hnodup hmake List.prefix_rfl

end Fronts

lemma makeable_wanted {c : Config} {w : Workflow} {files : TextMap String}
    (hfiles : w.managerFiles c = .ok files) :
    ∀ v ∈ w.wanted c, ∃ r, v.object = .ok r := by
  intro v hv
  rcases List.mem_append.mp hv with hv | hv
  · obtain ⟨r, _, rfl⟩ := List.mem_map.mp hv
    exact ⟨r, rfl⟩
  · simp only [List.mem_cons, List.not_mem_nil, or_false] at hv
    rcases hv with rfl | rfl
    · exact ⟨_, object_wantedManagerFiles hfiles⟩
    · exact ⟨_, rfl⟩

end WorkflowOperator
