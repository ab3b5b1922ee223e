import QuotaWarden.WatchCache.Index

/-!
# The cache of a kind of objects

The cache holds the objects of one kind. A list response replaces what it holds; events of a watch
change it. Each step gives the changes that are to be told to others.

* `WatchCache.replace` applies a list response, `WatchCache.apply` one event, `WatchCache.synthetic`
  gives a change for every object.
* `WatchCache.list`, `WatchCache.listIn` and `WatchCache.first?` read the cache; they tell nothing
  before the first list response. -/

namespace QuotaWarden

inductive ChangeKind where
  | added
  | modified
  | deleted
deriving DecidableEq, Repr, Inhabited

namespace ChangeKind

def name : ChangeKind → String
  | added => "ADDED"
  | modified => "MODIFIED"
  | deleted => "DELETED"

def ofName? (text : String) : Option ChangeKind :=
  [added, modified, deleted].find? fun k => k.name = text

theorem ofName?_name (k : ChangeKind) : ofName? k.name = some k := by cases k <;> rfl

end ChangeKind

/-- A change of an object, as handlers are told of it. -/
structure Change where
  kind : ChangeKind
  object : ApiObject
deriving Inhabited

/-- The cache of a kind of objects. -/
structure WatchCache where
  /-- The kind, as log lines name it. -/
  kind : String
  index : Index
  /-- Whether a list response has been applied. -/
  synced : Bool
deriving Inhabited

namespace WatchCache

def empty (kind : String) : WatchCache := ⟨kind, .empty, false⟩

/-- The name of the thread that tells of all objects at intervals. -/
def resyncName (c : WatchCache) : String := c.kind ++ "-resync"

/-- The objects of a list response with their keys. -/
def entries (response : ApiObject) : Except Fault (List (ObjectKey × ApiObject)) := do
  let objects ← response.items
  objects.mapM fun o => do return (← ObjectKey.ofMeta (← o.metadata), o)

def isPresent : Option ApiObject → Bool
  | none => false
  | some (.untyped .null) => false
  | some _ => true

/-- Whether the versions of two objects differ; both objects have readable metadata. -/
def versionsDiffer (old new : ApiObject) : Bool :=
  match old.metadata, new.metadata with
  | .ok m, .ok n => !m.version.same n.version
  | _, _ => true

/-- The change that a listed object is, if it is new or has another version. -/
def changeOfListed (previous : Index) (k : ObjectKey) (o : ApiObject) : Option Change :=
  match previous.get? k with
  | some old =>
    if !isPresent (some old) then some ⟨.added, o⟩
    else if versionsDiffer old o then some ⟨.modified, o⟩
    else none
  | none => some ⟨.added, o⟩

/-- The changes from one index to the next: first those of the objects listed, then the deletions.
-/
def changes (previous next : Index) : List Change :=
  (next.objects.filterMap fun e => changeOfListed previous e.1 e.2) ++
    previous.objects.filterMap fun e =>
      if Dictionary.has e.1 next.objects then none else some ⟨.deleted, e.2⟩

/-- Replaces what the cache holds by the objects of a list response. -/
def replace (response : ApiObject) (c : WatchCache) : Except Fault (WatchCache × List Change) := do
  let next := Index.ofList (← entries response)
  return ({ c with index := next }, changes c.index next)

/-- The key under which a deleted object is looked for: none in an empty index, where the name is
not even looked at. -/
def deletedKey? (m : ObjectMeta) (i : Index) : Except Fault (Option ObjectKey) := do
  if i.objects.isEmpty then
    let _ ← Key.ofJson m.ns
    return none
  else some <$> ObjectKey.ofMeta m

/-- Stores `o`, or removes what stands under its key, and gives the change to tell of. -/
def apply (kind : ChangeKind) (o : ApiObject) (c : WatchCache) :
    Except Fault (WatchCache × Change) := do
  let m ← o.metadata
  match kind with
  | .deleted =>
    match ← deletedKey? m c.index with
    | some k => return ({ c with index := c.index.remove k }, ⟨kind, o⟩)
    | none => return (c, ⟨kind, o⟩)
  | _ =>
    let k ← ObjectKey.ofMeta m
    return ({ c with index := c.index.store k o }, ⟨kind, o⟩)

/-- A change for every object, as if it were modified. -/
def synthetic (c : WatchCache) : List Change :=
  if c.synced then c.index.objects.map fun e => ⟨.modified, e.2⟩ else []

def list (c : WatchCache) : Except Fault (List ApiObject) :=
  if c.synced then c.index.all else .ok []

/-- The objects of a namespace, sorted by name; where no namespace is given, all objects. -/
def listIn (ns : Json) (c : WatchCache) : Except Fault (List ApiObject) :=
  match ns with
  | .null => c.list
  | ns => if c.synced then do c.index.inNamespace (← Key.ofJson ns) else .ok []

/-- The first object of a namespace by name. -/
def first? (ns : Json) (c : WatchCache) : Except Fault (Option ApiObject) :=
  if c.synced then do c.index.first? (← Key.ofJson ns) else .ok none

end WatchCache

end QuotaWarden
