import WorkflowOperator.Error
import WorkflowOperator.Resource.Basic

/-!
# Stores

A store holds objects by their keys and a journal of all that were created.  It creates an object only
where none is, and gives it a new identifier and the time.
-/

namespace WorkflowOperator

/-- What a store puts on an object when it creates it. -/
structure Stamp where
  uid : String
  time : Timestamp
deriving DecidableEq, Repr

/-- A creation. -/
structure JournalEntry where
  key : ObjectKey
  stamp : Stamp
deriving DecidableEq, Repr

/-- The objects by their keys, and the creations from the first on. -/
structure Store where
  objects : SortedMap ObjectKey Resource
  journal : List JournalEntry
deriving DecidableEq

def Resource.stamped (stamp : Stamp) (r : Resource) : Resource :=
  { r with metadata := { r.metadata with uid := some stamp.uid, created := some stamp.time } }

@[simp] theorem Resource.key_stamped (stamp : Stamp) (r : Resource) :
    (r.stamped stamp).key = r.key := rfl

namespace Store

def empty : Store := ⟨∅, []⟩

def list (s : Store) : List Resource := s.objects.values

def keys (s : Store) : List ObjectKey := s.objects.keys

def size (s : Store) : Nat := s.objects.size

def contains (s : Store) (key : ObjectKey) : Bool := s.objects.contains key

def lookup (s : Store) (key : ObjectKey) : Outcome Resource :=
  match s.objects.get? key with
  | some r => .ok r
  | none => .error (.notFound key.kind key.name)

/-- Why a store refuses to create an object, if it does. -/
def refusal? (s : Store) (key : ObjectKey) : Option Error :=
  if key.name.isEmpty then some (.store (key.kind.name ++ " has no name"))
  else if !key.isInScope then some (.store (key.text ++ " has the wrong scope for its kind"))
  else if s.contains key then some (.alreadyExists key.kind key.name)
  else none

/-- A store with an object put into it, and its creation written down. -/
def put (s : Store) (stamp : Stamp) (r : Resource) : Store :=
  ⟨s.objects.insert r.key (r.stamped stamp), s.journal ++ [⟨r.key, stamp⟩]⟩

/-- Creates an object, unless the store refuses to. -/
def create (s : Store) (stamp : Stamp) (r : Resource) : Outcome (Resource × Store) :=
  match s.refusal? r.key with
  | some e => .error e
  | none => .ok (r.stamped stamp, s.put stamp r)

/-- Deletes the object with a key; says whether there was one. -/
def delete (s : Store) (key : ObjectKey) : Bool × Store :=
  (s.contains key, { s with objects := s.objects.erase key })

end Store

end WorkflowOperator
