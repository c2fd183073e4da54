import WorkflowOperator.Resource.Kind

/-!
# Keys of objects

A store looks objects up by kind, name and namespace and lists them in that order.
-/

namespace WorkflowOperator

/-- What a store looks an object up by. -/
structure ObjectKey where
  kind : ResourceKind
  name : String
  /-- Objects that belong to the cluster are in none. -/
  inNamespace : Option String
deriving DecidableEq, Repr

namespace ObjectKey

/-- The order of listing: by kind, then by name, then by namespace. -/
def order : ObjectKey → ObjectKey → Ordering :=
  compareLex (compareOn fun k => k.kind.rank)
    (compareLex (compareOn ObjectKey.name) (compareOn ObjectKey.inNamespace))

instance : Ord ObjectKey := ⟨order⟩

instance : Std.TransOrd ObjectKey :=
  inferInstanceAs (Std.TransCmp (compareLex (compareOn fun k : ObjectKey => k.kind.rank)
    (compareLex (compareOn ObjectKey.name) (compareOn ObjectKey.inNamespace))))

instance : Std.LawfulEqOrd ObjectKey where
  compare_self := Std.ReflCmp.compare_self
  eq_of_compare {a b} h := by
    have h' : ((compare a.kind.rank b.kind.rank).then
        ((compare a.name b.name).then (compare a.inNamespace b.inNamespace))) = .eq := h
    simp only [Ordering.then_eq_eq, Std.LawfulEqCmp.compare_eq_iff_eq] at h'
    have hk := ResourceKind.rank_injective h'.1
    cases a; cases b
    simp_all

/-- The key of an object of a kind, which drops the namespace where the kind has none. -/
def of (kind : ResourceKind) (name inNamespace : String) : ObjectKey :=
  ⟨kind, name, if kind.isClusterScoped then none else some inNamespace⟩

def text (k : ObjectKey) : String :=
  match k.inNamespace with
  | some ns => k.kind.name ++ " " ++ ns ++ "/" ++ k.name
  | none => k.kind.name ++ " " ++ k.name

/-- Whether a key has a namespace exactly if its kind has one. -/
def isInScope (k : ObjectKey) : Bool := k.kind.isClusterScoped == k.inNamespace.isNone

end ObjectKey

end WorkflowOperator
