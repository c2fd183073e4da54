import WorkflowOperator.Json.Decoder
import WorkflowOperator.Proofs.SortedMap
import WorkflowOperator.Resource.Manifest

/-!
# Members that come back

The members of an object are looked up in the list that it was made from, part by part. A member that
was left out is the one for which its reader has a default, so a field that is written by one rule and
read by its counterpart comes back whether it was left out or not.
-/

namespace WorkflowOperator

namespace SortedMap

variable {κ α : Type} [Ord κ] [Std.TransOrd κ] [Std.LawfulEqOrd κ]

lemma ofList_toList (m : SortedMap κ α) : ofList m.toList = m := by
  apply ext_get?
  intro k
  apply Option.ext
  intro v
  rw [get?_ofList m.nodup_keys, get?_eq_some_iff]
  rfl

lemma toList_ofList_perm {l : List (κ × α)} (h : (l.map Prod.fst).Nodup) :
    (ofList l).toList.Perm l := by
  refine (List.perm_ext_iff_of_nodup (ofList l).nodup_keys.of_map h.of_map).mpr ?_
  rintro ⟨k, v⟩
  rw [toList, ← get?_eq_some_iff, get?_ofList h]

end SortedMap

namespace Json

@[simp] lemma member?_append (name : String) (l l' : List (String × Json)) :
    (object (l ++ l')).member? name =
      ((object l').member? name).or ((object l).member? name) := by
  simp [member?, List.find?_append, Option.map_or]

@[simp] lemma member?_singleton (name key : String) (v : Json) :
    (object [(key, v)]).member? name = if key = name then some v else none := by
  by_cases h : key = name <;> simp [member?, h]

@[simp] lemma member?_cons (name key : String) (v : Json) (l : List (String × Json)) :
    (object ((key, v) :: l)).member? name =
      ((object l).member? name).or (if key = name then some v else none) := by
  rw [← member?_singleton, ← member?_append, List.singleton_append]

@[simp] lemma member?_nil (name : String) : (object []).member? name = none := rfl

lemma find?_key_eq_some_iff {l : List (String × Json)} (h : (l.map Prod.fst).Nodup) {name : String}
    {v : Json} : (l.find? fun e => e.1 == name).map Prod.snd = some v ↔ (name, v) ∈ l := by
  induction l with
  | nil => simp
  | cons e l ih =>
    obtain ⟨key, v'⟩ := e
    rw [List.map_cons, List.nodup_cons] at h
    by_cases hkey : key = name
    · subst hkey
      have hnone : (key, v) ∉ l := fun hmem => h.1 (List.mem_map.mpr ⟨_, hmem, rfl⟩)
      simp [hnone, eq_comm]
    · simp [hkey, Ne.symm hkey, ← ih h.2]

lemma member?_eq_some_iff {l : List (String × Json)} (h : (l.map Prod.fst).Nodup) {name : String}
    {v : Json} : (object l).member? name = some v ↔ (name, v) ∈ l := by
  have hnodup : (l.reverse.map Prod.fst).Nodup := by
    rwa [List.map_reverse, List.nodup_reverse]
  rw [member?, find?_key_eq_some_iff hnodup, List.mem_reverse]

/-- An object has the members of the list that it is made of, the later of two with one name. -/
lemma member?_ofMembers (name : String) (l : List (String × Json)) :
    (ofMembers l).member? name = (object l).member? name := by
  have hget : ∀ m : TextMap Json, (object m.toList).member? name = m.get? name := by
    intro m
    apply Option.ext
    intro v
    rw [member?_eq_some_iff m.nodup_keys, SortedMap.get?_eq_some_iff]
    rfl
  rw [ofMembers, hget]
  -- from the end, where a member takes the place of an earlier one of its name
  induction l using List.reverseRecOn with
  | nil => rfl
  | append_singleton l e ih =>
    rw [SortedMap.ofList_concat, member?_append, ← ih]
    obtain ⟨key, v⟩ := e
    rw [member?_singleton]
    by_cases hkey : key = name
    · subst hkey
      rw [SortedMap.get?_insert_self, if_pos rfl, Option.some_or]
    · rw [SortedMap.get?_insert_of_ne _ (Ne.symm hkey), if_neg hkey, Option.none_or]

@[simp] lemma member?_optional {α : Type} (name key : String) (write : α → Json) (a? : Option α) :
    (object (optional key write a?)).member? name = if key = name then a?.map write else none := by
  cases a? with
  | none => simp [optional]
  | some a => rw [optional, member?_singleton, Option.map_some]

@[simp] lemma member?_unlessEmpty {α : Type} (name key : String) (write : α → Json) (l : List α) :
    (object (unlessEmpty key write l)).member? name =
      if key = name ∧ l ≠ [] then some (.array (l.map write)) else none := by
  cases l with
  | nil => simp [unlessEmpty]
  | cons a l => simp [unlessEmpty]

@[simp] lemma member?_unlessEmptyMap (name key : String) (m : TextMap String) :
    (object (unlessEmptyMap key m)).member? name =
      if key = name ∧ m.isEmpty = false then some (ofTextMap m) else none := by
  unfold unlessEmptyMap
  cases m.isEmpty <;> simp

namespace Decoder

variable {α : Type}

/-- A value that was read is handed on to what is read next. -/
lemma bind_ok {ε α β : Type} {x : Except ε α} {f : α → Except ε β} {a : α} {b : β}
    (hx : x = .ok a) (hf : f a = .ok b) : x >>= f = .ok b := by
  rw [hx]
  exact hf

lemma members_ofMembers (fields : List String) (l : List (String × Json)) :
    members fields (ofMembers l) = .ok fun name => (object l).member? name := by
  change Except.ok (fun name => (ofMembers l).member? name) = _
  simp only [member?_ofMembers]

lemma list_map {d : Decoder α} {write : α → Json} {l : List α}
    (h : ∀ a ∈ l, d (write a) = .ok a) : list d (.array (l.map write)) = .ok l := by
  rw [list]
  induction l with
  | nil => rfl
  | cons a l ih =>
    rw [List.forall_mem_cons] at h
    rw [List.map_cons, List.mapM_cons, h.1, ih h.2]
    rfl

lemma list_ofStrings (l : List String) : list text (ofStrings l) = .ok l :=
  list_map fun _ _ => rfl

lemma textMap_ofTextMap (m : TextMap String) : textMap text (ofTextMap m) = .ok m := by
  have hfold : ∀ (l : List (String × String)) (start : TextMap String),
      (l.map fun e => (e.1, Json.string e.2)).foldlM
        (fun m e => (text e.2).map (m.insert e.1)) start =
          .ok (l.foldl (fun m e => m.insert e.1 e.2) start) := by
    intro l
    induction l with
    | nil => exact fun _ => rfl
    | cons e l ih => exact fun start => ih (start.insert e.1 e.2)
  rw [ofTextMap, textMap, hfold]
  exact congrArg Except.ok m.ofList_toList

lemma word32_countJson (n : UInt32) : word32 (countJson n) = .ok n := by
  have hrange : (0 : Int) ≤ n.toNat ∧ (n.toNat : Int) < 0x100000000 := by
    have hlt := n.toNat_lt
    omega
  simp only [countJson, ofNat, word32]
  rw [if_pos hrange, Int.toNat_natCast, UInt32.ofNat_toNat]

/-! ### Fields -/

variable {ms : Members} {name : String}

lemma required_of_member {d : Decoder α} (v : Json) (a : α) (hms : ms name = some v)
    (h : d v = .ok a) : required ms name d = .ok a := by
  rw [required, hms]
  exact h

lemma withDefault_nullable {d : Decoder α} (write : α → Json) (a? : Option α)
    (hms : ms name = a?.map write) (h : ∀ a ∈ a?, nullable d (write a) = .ok (some a)) :
    withDefault ms name (nullable d) none = .ok a? := by
  unfold withDefault
  rw [hms]
  cases a? with
  | none => rfl
  | some a => exact h a rfl

lemma withDefault_list {d : Decoder α} (write : α → Json) (l : List α)
    (hms : ms name = if l ≠ [] then some (.array (l.map write)) else none)
    (h : ∀ a ∈ l, d (write a) = .ok a) : withDefault ms name (list d) [] = .ok l := by
  unfold withDefault
  rw [hms]
  cases l with
  | nil => rfl
  | cons a l =>
    rw [if_pos (List.cons_ne_nil a l)]
    exact list_map h

lemma withDefault_textMap (m : TextMap String)
    (hms : ms name = if m.isEmpty = false then some (ofTextMap m) else none) :
    withDefault ms name (textMap text) ∅ = .ok m := by
  unfold withDefault
  rw [hms]
  by_cases hm : m.isEmpty = false
  · rw [if_pos hm]
    exact textMap_ofTextMap m
  · rw [if_neg hm]
    rw [Bool.not_eq_false, SortedMap.isEmpty, List.isEmpty_iff] at hm
    exact congrArg Except.ok (SortedMap.ext_entries hm.symm)

end Decoder

end Json

end WorkflowOperator
