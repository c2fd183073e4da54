import WorkflowOperator.Store.Basic

/-!
# Collection of owned objects

What an owner owns goes with it, and so does what that owns in turn.  Objects are removed in rounds:
first those that name the owner, then those that name one of them, until a round finds none.
-/

namespace WorkflowOperator.Store

def owned (uids : List String) (objects : SortedMap ObjectKey Resource) :
    SortedMap ObjectKey Resource := objects.filter fun _ r => r.isOwnedBy uids

def notOwned (uids : List String) (objects : SortedMap ObjectKey Resource) :
    SortedMap ObjectKey Resource := objects.filter fun _ r => !r.isOwnedBy uids

theorem size_owned_add_size_notOwned (uids : List String)
    (objects : SortedMap ObjectKey Resource) :
    (owned uids objects).size + (notOwned uids objects).size = objects.size := by
  simp only [owned, notOwned, SortedMap.size, SortedMap.filter]
  induction objects.entries with
  | nil => rfl
  | cons e rest ih => by_cases h : e.2.isOwnedBy uids <;> simp_all <;> omega

/-- Removes what the given identifiers own, round by round: the keys that were removed, and what is
left. -/
def collectRounds (uids : List String) (objects : SortedMap ObjectKey Resource) :
    List ObjectKey × SortedMap ObjectKey Resource :=
  if _h : (owned uids objects).size = 0 then ([], objects)
  else
    let found := owned uids objects
    let (keys, rest) :=
      collectRounds (uids ++ found.values.filterMap (·.metadata.uid)) (notOwned uids objects)
    (found.keys ++ keys, rest)
termination_by objects.size
decreasing_by
  have := size_owned_add_size_notOwned uids objects
  omega

/-- Removes all that an identifier owns, directly or through other objects; gives the keys in the
order of removal. -/
def collect (s : Store) (uid : String) : List ObjectKey × Store :=
  let (keys, rest) := collectRounds [uid] s.objects
  (keys, { s with objects := rest })

end WorkflowOperator.Store
