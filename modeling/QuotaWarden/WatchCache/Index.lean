import QuotaWarden.ApiObject

/-!
# The index of a cache

Objects by namespace and name, in two forms: one dictionary of all of them, and for each namespace a
dictionary by name. A namespace without objects has no entry.

* `Index.store` and `Index.remove` change both forms, `Index.ofList` builds them.
* `Index.all` is sorted by namespace and name, `Index.inNamespace` by name; `Index.first?` is the
  first object of a namespace. -/

namespace QuotaWarden

/-- Objects by namespace and name. -/
structure Index where
  objects : List (ObjectKey × ApiObject)
  byNamespace : List (Key × List (Key × ApiObject))
deriving Inhabited

namespace Index

def empty : Index := ⟨[], []⟩

def get? (k : ObjectKey) (i : Index) : Option ApiObject := Dictionary.get? k i.objects

def namespaceOf (ns : Key) (i : Index) : List (Key × ApiObject) :=
  (Dictionary.get? ns i.byNamespace).getD []

/-- Stores `o` under `k` in both forms. -/
def store (k : ObjectKey) (o : ApiObject) (i : Index) : Index where
  objects := Dictionary.set k o i.objects
  byNamespace := Dictionary.set k.ns (Dictionary.set k.name o (i.namespaceOf k.ns)) i.byNamespace

/-- Removes an object; a namespace that loses its last object is removed too. -/
def remove (k : ObjectKey) (i : Index) : Index where
  objects := Dictionary.erase k i.objects
  byNamespace :=
    match Dictionary.get? k.ns i.byNamespace with
    | none => i.byNamespace
    | some inner =>
      match Dictionary.erase k.name inner with
      | [] => Dictionary.erase k.ns i.byNamespace
      | inner => Dictionary.set k.ns inner i.byNamespace

/-- The index of a list of objects with their keys; of two objects with one key the last one counts.
-/
def ofList (entries : List (ObjectKey × ApiObject)) : Index :=
  entries.foldl (fun i e => i.store e.1 e.2) empty

def all (i : Index) : Except Fault (List ApiObject) := do
  let sorted ← sortOrdered (fun j k => j.1.before k.1) i.objects
  return sorted.map (·.2)

def inNamespace (ns : Key) (i : Index) : Except Fault (List ApiObject) := do
  let sorted ← sortOrdered (fun j k => j.1.before k.1) (i.namespaceOf ns)
  return sorted.map (·.2)

/-- The object of a namespace with the first name. -/
def first? (ns : Key) (i : Index) : Except Fault (Option ApiObject) := do
  let least ← leastOrdered (fun j k => j.1.before k.1) (i.namespaceOf ns)
  return least.map (·.2)

end Index

end QuotaWarden
