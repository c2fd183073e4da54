/-!
# Finite maps in key order

A finite map is kept as its list of entries in strictly increasing order of keys, so two maps
with the same entries are equal and every listing of a map is in order.
-/

namespace WorkflowOperator

/-- A finite map from `κ` to `α`, as its entries in increasing order of keys. -/
structure SortedMap (κ : Type) (α : Type) [Ord κ] where
  entries : List (κ × α)
  sorted : entries.Pairwise fun a b => compare a.1 b.1 = .lt

namespace SortedMap

section
variable {κ α β : Type} [Ord κ]

def empty : SortedMap κ α := ⟨[], .nil⟩

instance : EmptyCollection (SortedMap κ α) := ⟨empty⟩
instance : Inhabited (SortedMap κ α) := ⟨empty⟩

instance [DecidableEq κ] [DecidableEq α] : DecidableEq (SortedMap κ α) := fun a b =>
  decidable_of_iff (a.entries = b.entries) ⟨fun h => by cases a; cases b; simp_all, fun h => h ▸ rfl⟩

theorem ext_entries {m n : SortedMap κ α} (h : m.entries = n.entries) : m = n := by
  cases m; cases n; simp_all

def toList (m : SortedMap κ α) : List (κ × α) := m.entries

def keys (m : SortedMap κ α) : List κ := m.entries.map Prod.fst

def values (m : SortedMap κ α) : List α := m.entries.map Prod.snd

def size (m : SortedMap κ α) : Nat := m.entries.length

def isEmpty (m : SortedMap κ α) : Bool := m.entries.isEmpty

/-- The value at a key in a list of entries. -/
def lookup (k : κ) : List (κ × α) → Option α
  | [] => none
  | (k', v) :: rest => if compare k k' = .eq then some v else lookup k rest

def get? (m : SortedMap κ α) (k : κ) : Option α := lookup k m.entries

def contains (m : SortedMap κ α) (k : κ) : Bool := (m.get? k).isSome

/-- The entries with a value put at a key, in place of the one that was there. -/
def put (k : κ) (v : α) : List (κ × α) → List (κ × α)
  | [] => [(k, v)]
  | (k', v') :: rest =>
    match compare k k' with
    | .lt => (k, v) :: (k', v') :: rest
    | .eq => (k, v) :: rest
    | .gt => (k', v') :: put k v rest

theorem mem_put {k : κ} {v : α} {e : κ × α} {l : List (κ × α)} (h : e ∈ put k v l) :
    e = (k, v) ∨ e ∈ l := by
  induction l with
  | nil => simpa [put] using h
  | cons hd tl ih =>
    obtain ⟨k', v'⟩ := hd
    rw [put] at h
    split at h <;> grind

theorem sorted_put [Std.TransOrd κ] [Std.LawfulEqOrd κ] (k : κ) (v : α) {l : List (κ × α)}
    (h : l.Pairwise fun a b => compare a.1 b.1 = .lt) :
    (put k v l).Pairwise fun a b => compare a.1 b.1 = .lt := by
  induction l with
  | nil => simp [put]
  | cons hd tl ih =>
    obtain ⟨k', v'⟩ := hd
    rw [List.pairwise_cons] at h
    rw [put]
    split
    next hlt =>
      refine List.pairwise_cons.2 ⟨fun e he => ?_, List.pairwise_cons.2 h⟩
      rcases List.mem_cons.1 he with rfl | he
      · exact hlt
      · exact Std.TransCmp.lt_trans hlt (h.1 e he)
    next heq =>
      have hk : k = k' := Std.LawfulEqCmp.eq_of_compare heq
      subst hk
      exact List.pairwise_cons.2 h
    next hgt =>
      refine List.pairwise_cons.2 ⟨fun e he => ?_, ih h.2⟩
      rcases mem_put he with rfl | he
      · exact Std.OrientedCmp.lt_of_gt hgt
      · exact h.1 e he

/-- The map with a value put at a key. -/
def insert [Std.TransOrd κ] [Std.LawfulEqOrd κ] (m : SortedMap κ α) (k : κ) (v : α) :
    SortedMap κ α :=
  ⟨put k v m.entries, sorted_put k v m.sorted⟩

def filter (m : SortedMap κ α) (p : κ → α → Bool) : SortedMap κ α :=
  ⟨m.entries.filter fun e => p e.1 e.2, m.sorted.filter _⟩

def erase (m : SortedMap κ α) (k : κ) : SortedMap κ α :=
  m.filter fun k' _ => !(compare k k' == .eq)

/-- The map of a list of entries; of two with one key the later counts. -/
def ofList [Std.TransOrd κ] [Std.LawfulEqOrd κ] (l : List (κ × α)) : SortedMap κ α :=
  l.foldl (fun m e => m.insert e.1 e.2) ∅

def singleton (k : κ) (v : α) : SortedMap κ α := ⟨[(k, v)], by simp⟩

end

section Lemmas
variable {κ α : Type} [Ord κ] [Std.LawfulEqOrd κ]

theorem lookup_put_self (k : κ) (v : α) (l : List (κ × α)) : lookup k (put k v l) = some v := by
  induction l with
  | nil => simp [put, lookup, Std.ReflCmp.compare_self]
  | cons hd tl ih =>
    obtain ⟨k', v'⟩ := hd
    rw [put]
    split
    next => simp [lookup, Std.ReflCmp.compare_self]
    next => simp [lookup, Std.ReflCmp.compare_self]
    next hgt => simp [lookup, hgt, ih]

theorem lookup_put_of_ne {k k' : κ} (h : k' ≠ k) (v : α) (l : List (κ × α)) :
    lookup k' (put k v l) = lookup k' l := by
  have hne : compare k' k ≠ .eq := fun e => h (Std.LawfulEqCmp.eq_of_compare e)
  induction l with
  | nil => simp [put, lookup, hne]
  | cons hd tl ih =>
    obtain ⟨k₂, v₂⟩ := hd
    rw [put]
    split
    next => simp [lookup, hne]
    next heq =>
      have hk : k = k₂ := Std.LawfulEqCmp.eq_of_compare heq
      subst hk
      simp [lookup, hne]
    next => simp [lookup, ih]

variable [Std.TransOrd κ]

@[simp] theorem get?_insert_self (m : SortedMap κ α) (k : κ) (v : α) :
    (m.insert k v).get? k = some v := lookup_put_self k v m.entries

theorem get?_insert_of_ne (m : SortedMap κ α) {k k' : κ} (h : k' ≠ k) (v : α) :
    (m.insert k v).get? k' = m.get? k' := lookup_put_of_ne h v m.entries

end Lemmas

end SortedMap

/-- A finite map from texts, as used for labels, properties and data. -/
abbrev TextMap (α : Type) := SortedMap String α

end WorkflowOperator
