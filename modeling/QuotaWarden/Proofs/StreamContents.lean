import QuotaWarden.Proofs.CacheChanges
import QuotaWarden.WatchCache.Calls
import Mathlib.Data.List.Induction

/-! # What lists and streams contribute

A cache takes in list responses and changes. `held past` are the objects after the intakes `past`,
and `latest k past.reverse` is what they leave under the key `k` (`get?_held`).

* `contributed stopped objects events` are the changes that a stream contributes, those before its
  first event that comes with the stop signal set, is an error or cannot be applied; `halt?` is the
  reason why the events after that do not count.
* `Opening.fate` says how a watch of an opened stream ends, by `halt?` and the end of the stream.
* `Index.Holds objects` says that both forms of an index hold `objects`. `WatchCache.apply` keeps it
  and fails exactly on the changes that are not `applicable` (`WatchCache.takesIn`). -/

namespace QuotaWarden

/-! ### Intakes -/

/-- Objects by key. -/
abbrev Objects := List (ObjectKey × ApiObject)

/-- The objects after a change: one without a key changes nothing. -/
def Change.onto (objects : Objects) (d : Change) : Objects :=
  match d.object.key? with
  | none => objects
  | some k =>
    if d.kind = .deleted then Dictionary.erase k objects else Dictionary.set k d.object objects

/-- What a cache takes in: the objects of a list response, or a change. -/
inductive Intake where
  | listed (entries : Objects)
  | changed (d : Change)

namespace Intake

/-- The objects after an intake. -/
def onto (objects : Objects) : Intake → Objects
  | listed entries => entries.foldl (fun d e => Dictionary.set e.1 e.2 d) []
  | changed d => d.onto objects

def isListed : Intake → Bool
  | listed _ => true
  | changed _ => false

end Intake

/-- The objects that are held after `past`. -/
def held (past : List Intake) : Objects := past.foldl Intake.onto []

/-- What intakes, the last one first, leave under `k`: the last one that is about `k` decides, and
of a list response the last object with that key. -/
def latest (k : ObjectKey) : List Intake → Option ApiObject
  | [] => none
  | .listed entries :: _ => (entries.reverse.find? fun e => k == e.1).map (·.2)
  | .changed d :: earlier =>
    if d.object.key?.any (k == ·) then if d.kind = .deleted then none else some d.object
    else latest k earlier

theorem get?_foldl_set (k : ObjectKey) (entries : Objects) :
    Dictionary.get? k (entries.foldl (fun d e => Dictionary.set e.1 e.2 d) []) =
      (entries.reverse.find? fun e => k == e.1).map (·.2) := by
  induction entries using List.reverseRecOn with
  | nil => rfl
  | append_singleton r e ih =>
      rw [List.foldl_append, List.foldl_cons, List.foldl_nil, Dictionary.get?_set, ih,
        List.reverse_append, List.reverse_singleton, List.singleton_append, List.find?_cons]
      cases k == e.1 <;> rfl

theorem Change.get?_onto (k : ObjectKey) (objects : Objects) (d : Change) :
    Dictionary.get? k (d.onto objects) =
      if d.object.key?.any (k == ·) then if d.kind = .deleted then none else some d.object
      else Dictionary.get? k objects := by
  unfold Change.onto
  cases d.object.key? with
  | none => rfl
  | some j =>
      by_cases hd : d.kind = .deleted
      · simp [hd, Dictionary.get?_erase]
      · simp [hd, Dictionary.get?_set]

theorem held_append (past next : List Intake) :
    held (past ++ next) = next.foldl Intake.onto (held past) := List.foldl_append

theorem get?_held (k : ObjectKey) (past : List Intake) :
    Dictionary.get? k (held past) = latest k past.reverse := by
  induction past using List.reverseRecOn with
  | nil => rfl
  | append_singleton r x ih =>
      rw [held_append, List.reverse_append, List.reverse_singleton, List.singleton_append,
        List.foldl_cons, List.foldl_nil]
      cases x with
      | listed entries => exact get?_foldl_set k entries
      | changed d =>
          rw [latest, ← ih]
          exact d.get?_onto k (held r)

/-- The intakes that the outcome of a list call gives: one if it can be read. -/
def listIntake (response : Except Fault ApiObject) : List Intake :=
  match WatchCache.listed response with
  | .ok entries => [.listed entries]
  | .error _ => []

/-! ### Streams -/

/-- A change can be applied where `objects` are held: the metadata of its object can be read, and
the namespace and the name can be a key. A deletion where nothing is held does not look at the name.
-/
def Change.applicable (objects : Objects) (d : Change) : Bool :=
  match d.object.metadata with
  | .error _ => false
  | .ok m =>
    if d.kind = .deleted ∧ objects = [] then (Key.ofJson m.ns).isOk
    else (ObjectKey.ofMeta m).isOk

/-- The change that an event is; events of other types are none. -/
def WatchEvent.change? (e : WatchEvent) : Option Change :=
  (ChangeKind.ofName? e.type).map fun kind => ⟨kind, e.object⟩

/-- The changes before the first event that comes with the stop signal set, is an error, or cannot
be applied. -/
def contributed (stopped : Bool) (objects : Objects) : List (WatchEvent × Bool) → List Change
  | [] => []
  | (e, stops) :: r =>
    if stops || stopped || e.type = "ERROR" then []
    else
      match e.change? with
      | none => contributed stopped objects r
      | some d =>
        if d.applicable objects then d :: contributed stopped (d.onto objects) r else []

/-- Why the events of a stream do not all count. -/
inductive Halt where
  | stopped
  | errorEvent
  | unreadable
deriving DecidableEq, Repr

/-- What keeps the events after the contributed ones from counting, if there is such a thing. -/
def halt? (stopped : Bool) (objects : Objects) : List (WatchEvent × Bool) → Option Halt
  | [] => none
  | (e, stops) :: r =>
    if stops || stopped then some .stopped
    else if e.type = "ERROR" then some .errorEvent
    else
      match e.change? with
      | none => halt? stopped objects r
      | some d =>
        if d.applicable objects then halt? stopped (d.onto objects) r else some .unreadable

/-- How a watch ends. -/
inductive Fate where
  | returned
  | raised
  | stillOpen
deriving DecidableEq, Repr

/-- A stream is left at a halt, and a change that cannot be applied raises a fault. Else the end of
the stream decides; a fault of it is raised unless it says that the version is too old. -/
def WatchStream.fate {τ : Type} (stream : WatchStream τ) (halt? : Option Halt) : Fate :=
  match halt?, stream.ending with
  | some .unreadable, _ => .raised
  | some _, _ => .returned
  | none, .closed => .returned
  | none, .failed f => if f.isGone then .returned else .raised
  | none, .endless => .stillOpen

namespace Opening

variable {τ : Type}

def contributed (o : Opening τ) : List Change :=
  QuotaWarden.contributed o.stopped o.cache.index.objects o.stream.events

/-- How the watch of the stream ends. -/
def fate (o : Opening τ) : Fate :=
  o.stream.fate (halt? o.stopped o.cache.index.objects o.stream.events)

end Opening

/-! ### Indexes after one operation -/

/-- Both forms of an index hold `objects`, each key once. -/
structure Index.Holds (objects : Objects) (i : Index) : Prop where
  objects : i.objects = objects
  coherent : i.Coherent
  unrepeated : i.Unrepeated

namespace Index.Holds

variable {objects : Objects} {i : Index}

theorem empty : Index.empty.Holds [] := ⟨rfl, empty_coherent, empty_unrepeated⟩

theorem store (h : i.Holds objects) (k : ObjectKey) (o : ApiObject) :
    (i.store k o).Holds (Dictionary.set k o objects) :=
  ⟨congrArg (Dictionary.set k o) h.objects, store_coherent h.coherent k o,
    store_unrepeated h.unrepeated k o⟩

theorem remove (h : i.Holds objects) (k : ObjectKey) :
    (i.remove k).Holds (Dictionary.erase k objects) :=
  ⟨congrArg (Dictionary.erase k) h.objects, remove_coherent h.coherent k,
    remove_unrepeated h.unrepeated k⟩

theorem foldl_store (h : i.Holds objects) (entries : Objects) :
    (entries.foldl (fun i e => i.store e.1 e.2) i).Holds
      (entries.foldl (fun d e => Dictionary.set e.1 e.2 d) objects) := by
  induction entries generalizing i objects with
  | nil => exact h
  | cons e r ih => exact ih (h.store e.1 e.2)

theorem ofList (objects entries : Objects) :
    (Index.ofList entries).Holds (Intake.onto objects (.listed entries)) :=
  empty.foldl_store entries

theorem get? {past : List Intake} (h : i.Holds (held past)) (k : ObjectKey) :
    i.get? k = latest k past.reverse := by
  rw [Index.get?, h.objects]
  exact get?_held k past

end Index.Holds

/-! ### Faults of operations on a cache -/

/-- A fault that is no refusal of an API. -/
def Fault.IsOwn (f : Fault) : Prop := f.refusal? = none

theorem Fault.IsOwn.not_gone {f : Fault} (h : f.IsOwn) : f.isGone = false := by
  rw [Fault.isGone, h]

theorem Key.ofJson_ends (v : Json) : Ends (fun _ => True) Fault.IsOwn (Key.ofJson v) := by
  cases v <;> first | exact trivial | exact rfl

theorem ObjectKey.ofMeta_ends (m : ObjectMeta) :
    Ends (fun _ => True) Fault.IsOwn (ObjectKey.ofMeta m) :=
  (Key.ofJson_ends m.ns).bind fun _ _ => (Key.ofJson_ends m.name).bind fun _ _ => trivial

theorem ApiObject.identify_ends (fields : List (String × Json)) :
    Ends (fun _ => True) Fault.IsOwn (ApiObject.identify fields) := by
  refine Ends.bind (P := fun _ => True) ?_ fun _ _ => trivial
  unfold untypedMetadata
  split
  · exact trivial
  · exact rfl

theorem ApiObject.metadata_ends (o : ApiObject) :
    Ends (fun _ => True) Fault.IsOwn o.metadata := by
  unfold ApiObject.metadata
  split
  · split <;> exact trivial
  · exact trivial
  · exact rfl
  · exact identify_ends _
  · exact identify_ends _
  · exact trivial

namespace WatchCache

variable {c : WatchCache} {o : ApiObject} {m : ObjectMeta}

theorem deletedKey?_ends (m : ObjectMeta) (i : Index) :
    Ends (fun _ => True) Fault.IsOwn (deletedKey? m i) := by
  unfold deletedKey?
  split
  · exact (Key.ofJson_ends m.ns).bind fun _ _ => trivial
  · exact (ObjectKey.ofMeta_ends m).bind fun _ _ => trivial

theorem apply_ends (c : WatchCache) (kind : ChangeKind) (o : ApiObject) :
    Ends (fun _ => True) Fault.IsOwn (c.apply kind o) := by
  refine (ApiObject.metadata_ends o).bind fun m _ => ?_
  cases kind with
  | deleted =>
      refine (deletedKey?_ends m c.index).bind fun k _ => ?_
      cases k <;> exact trivial
  | added => exact (ObjectKey.ofMeta_ends m).bind fun _ _ => trivial
  | modified => exact (ObjectKey.ofMeta_ends m).bind fun _ _ => trivial

/-- A change can be applied and is taken in, or it fails. -/
def TakesIn (c : WatchCache) (d : Change) : Prop :=
  (d.applicable c.index.objects = true ∧
      ∃ i, c.apply d.kind d.object = .ok ({ c with index := i }, d) ∧
        i.objects = d.onto c.index.objects ∧
        ∀ objects, c.index.Holds objects → i.Holds (d.onto objects)) ∨
    d.applicable c.index.objects = false ∧ ∃ f, c.apply d.kind d.object = .error f

theorem reads_of_unsynced (h : c.synced = false) (ns : Json) :
    c.list = .ok [] ∧ c.listIn ns = .ok [] ∧ c.first? ns = .ok none := by
  refine ⟨?_, ?_, ?_⟩
  · simp [list, h]
  · cases ns <;> simp [listIn, list, h]
  · simp [first?, h]

theorem takesIn_stored (hm : o.metadata = .ok m) {kind : ChangeKind} (hkind : kind ≠ .deleted) :
    c.TakesIn ⟨kind, o⟩ := by
  have applied : c.apply kind o =
      (ObjectKey.ofMeta m).map fun k => ({ c with index := c.index.store k o }, ⟨kind, o⟩) := by
    cases kind with
    | deleted => exact absurd rfl hkind
    | added => simp [apply, hm]; rfl
    | modified => simp [apply, hm]; rfl
  unfold TakesIn Change.applicable Change.onto ApiObject.key?
  rw [applied, hm]
  cases hk : ObjectKey.ofMeta m with
  | error f => exact Or.inr ⟨by simp [hkind, hk, Except.isOk, Except.toBool], f, rfl⟩
  | ok k =>
      refine Or.inl ⟨by simp [hkind, hk, Except.isOk, Except.toBool], _, rfl, ?_, fun _ h => ?_⟩
      · simp [hk, hkind, Except.toOption, Index.store]
      · simpa [hk, hkind, Except.toOption] using h.store k o

theorem takesIn_deleted (hm : o.metadata = .ok m) : c.TakesIn ⟨.deleted, o⟩ := by
  unfold TakesIn Change.applicable Change.onto ApiObject.key? apply
  cases full : c.index.objects with
  | nil =>
      cases hns : Key.ofJson m.ns with
      | error f =>
          refine Or.inr ⟨by simp [hm, hns, Except.isOk, Except.toBool], f, ?_⟩
          simp [hm, hns, deletedKey?, full, bind, Except.bind]
      | ok ns =>
          refine Or.inl ⟨by simp [hm, hns, Except.isOk, Except.toBool], c.index, ?_, ?_,
            fun objects h => ?_⟩
          · simp [hm, hns, deletedKey?, full, bind, Except.bind, pure, Except.pure]
          · cases hk : ObjectKey.ofMeta m with
            | error f => simp [hm, hk, full, Except.toOption]
            | ok k => simp [hm, hk, full, Except.toOption, Dictionary.erase]
          · obtain rfl : objects = [] := h.objects.symm.trans full
            cases hk : ObjectKey.ofMeta m with
            | error f => simpa [hm, hk, Except.toOption] using h
            | ok k => simpa [hm, hk, Except.toOption, Dictionary.erase] using h
  | cons e r =>
      cases hk : ObjectKey.ofMeta m with
      | error f =>
          refine Or.inr ⟨by simp [hm, hk, Except.isOk, Except.toBool], f, ?_⟩
          simp [hm, hk, deletedKey?, full, bind, Except.bind, Functor.map, Except.map]
      | ok k =>
          refine Or.inl ⟨by simp [hm, hk, Except.isOk, Except.toBool], c.index.remove k, ?_, ?_,
            fun objects h => ?_⟩
          · simp [hm, hk, deletedKey?, full, bind, Except.bind, Functor.map, Except.map, pure,
              Except.pure]
          · simp [hm, hk, full, Except.toOption, Index.remove]
          · simpa [hm, hk, Except.toOption] using h.remove k

/-- `apply` succeeds exactly on changes that are `applicable`. -/
theorem takesIn (c : WatchCache) (d : Change) : c.TakesIn d := by
  obtain ⟨kind, o⟩ := d
  cases hm : o.metadata with
  | error f =>
      refine Or.inr ⟨by simp [Change.applicable, hm], f, ?_⟩
      simp [apply, hm, bind, Except.bind]
  | ok m =>
      by_cases hkind : kind = .deleted
      · subst hkind
        exact takesIn_deleted hm
      · exact takesIn_stored hm hkind

end WatchCache

end QuotaWarden
