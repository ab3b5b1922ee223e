import QuotaWarden.WatchCache.Delivery
import QuotaWarden.Proofs.IndexCoherence
import QuotaWarden.Proofs.WrittenTexts

/-! # What a cache tells of its changes

A list response replaces the index of a cache, an event of a watch changes one of its objects. Both
keep an index of named objects in shape, and the changes that they give cover all that changed.

* `Index.Housed` are the indexes whose objects stand under the keys that their metadata give.
* `WatchCache.changes_cover`: for each key of two indexes, either a change about that key is told,
  or both hold no object under it, or objects of one version.
* `WatchCache.listed_textual` and `WatchCache.apply_located` say what the two operations do to an
  index of objects that can be located.
* `CacheHost.deliverAll_rel`: what the log and the handlers keep, telling of changes keeps.

Objects are `Named` if their metadata give them a namespace and a name that are texts, and the
namespace is not empty; objects that are `Located` may have the empty namespace. -/

namespace QuotaWarden

/-- An object has a namespace. -/
def ApiObject.Named (o : ApiObject) : Prop := ∃ ns name, o.IsAt ns name ∧ ns ≠ ""

theorem Key.ofJson_eq_text {v : Json} {s : String} (h : ofJson v = .ok (text s)) : v = .str s := by
  cases v <;> simp_all [ofJson]

namespace ApiObject

/-- The metadata of an object give this key. -/
def IsUnder (k : ObjectKey) (o : ApiObject) : Prop := ∃ j, o.key? = some j ∧ (j == k) = true

variable {o : ApiObject} {k : ObjectKey}

theorem IsUnder.of_meta {m : ObjectMeta} (hm : o.metadata = .ok m)
    (hk : ObjectKey.ofMeta m = .ok k) : o.IsUnder k :=
  ⟨k, by simp [key?, hm, hk, Except.toOption], BEq.refl k⟩

theorem IsUnder.congr {j : ObjectKey} (h : o.IsUnder j) (hj : (j == k) = true) : o.IsUnder k := by
  obtain ⟨i, hi, hij⟩ := h
  exact ⟨i, hi, BEq.trans hij hj⟩

theorem IsUnder.metadata (h : o.IsUnder k) : ∃ m ns name, o.metadata = .ok m ∧
    Key.ofJson m.ns = .ok ns ∧ Key.ofJson m.name = .ok name ∧ (ns == k.ns) = true ∧
    (name == k.name) = true := by
  obtain ⟨j, hj, hjk⟩ := h
  unfold key? at hj
  cases hm : o.metadata with
  | error f => simp [hm] at hj
  | ok m =>
      obtain ⟨hns, hname⟩ := ObjectKey.beq_iff.mp hjk
      refine ⟨m, j.ns, j.name, rfl, ?_⟩
      cases hn : Key.ofJson m.ns with
      | error f => simp [hm, ObjectKey.ofMeta, hn, bind, Except.bind, Except.toOption] at hj
      | ok ns =>
          cases hn' : Key.ofJson m.name with
          | error f =>
              simp [hm, ObjectKey.ofMeta, hn, hn', bind, Except.bind, Except.toOption] at hj
          | ok name =>
              simp only [hm, ObjectKey.ofMeta, hn, hn', bind, Except.bind, pure, Except.pure,
                Except.toOption, Option.some.injEq] at hj
              subst hj
              exact ⟨rfl, rfl, hns, hname⟩

theorem IsUnder.ns_text {ns : String} {name : Key} (h : o.IsUnder ⟨.text ns, name⟩) :
    ∃ m, o.metadata = .ok m ∧ m.ns = .str ns := by
  obtain ⟨m, j, _, hm, hj, _, hns, _⟩ := h.metadata
  rw [Key.eq_of_beq_text hns] at hj
  exact ⟨m, hm, Key.ofJson_eq_text hj⟩

theorem IsUnder.name_text {ns : Key} {name : String} (h : o.IsUnder ⟨ns, .text name⟩) :
    ∃ m, o.metadata = .ok m ∧ m.name = .str name := by
  obtain ⟨m, _, j, hm, _, hj, _, hname⟩ := h.metadata
  rw [Key.eq_of_beq_text hname] at hj
  exact ⟨m, hm, Key.ofJson_eq_text hj⟩

theorem IsUnder.isAt {ns name : String} (h : o.IsUnder ⟨.text ns, .text name⟩) :
    o.IsAt ns name := by
  obtain ⟨⟨n, m, version⟩, hm, hns⟩ := h.ns_text
  obtain ⟨_, hm', hname⟩ := h.name_text
  rw [hm, Except.ok.injEq] at hm'
  subst hm' hns hname
  exact ⟨version, hm⟩

theorem IsAt.isUnder {ns name : String} (h : o.IsAt ns name) :
    o.IsUnder ⟨.text ns, .text name⟩ := ⟨_, h.key?, BEq.refl _⟩

end ApiObject

/-- An index of objects, each under the key that its metadata give. -/
structure Index.Housed (i : Index) : Prop where
  coherent : i.Coherent
  unrepeated : i.Unrepeated
  placed : ∀ k o, (k, o) ∈ i.objects → o.IsUnder k

theorem Index.Textual.housed {P : ApiObject → Prop} {i : Index} (h : i.Textual P) : i.Housed := by
  refine ⟨h.coherent, h.unrepeated, ?_⟩
  intro k o hk
  obtain ⟨_, ns, name, rfl, hat⟩ := h.placed k o hk
  exact hat.isUnder

theorem Index.Housed.isUnder_of_get? {i : Index} (h : i.Housed) {k : ObjectKey} {o : ApiObject}
    (hk : i.get? k = some o) : o.IsUnder k := by
  obtain ⟨j, hj, hm⟩ := Dictionary.mem_of_get? hk
  exact (h.placed j o hm).congr hj

/-- An object of `inNamespace ns` stands under a key of `ns`. -/
theorem Index.Housed.isUnder_of_listed {i : Index} (h : i.Housed) {ns : Key}
    {objects : List ApiObject} (hl : i.inNamespace ns = .ok objects) {o : ApiObject}
    (ho : o ∈ objects) : ∃ name, o.IsUnder ⟨ns, name⟩ := by
  unfold Index.inNamespace at hl
  cases hs : sortOrdered (fun j k => j.1.before k.1) (i.namespaceOf ns) with
  | error f => simp [hs, bind, Except.bind] at hl
  | ok entries =>
      simp only [hs, bind, Except.bind, pure, Except.pure, Except.ok.injEq] at hl
      rw [← hl] at ho
      obtain ⟨e, he, rfl⟩ := List.mem_map.mp ho
      have mem := (sortOrdered_perm _ hs).mem_iff.mp he
      refine ⟨e.1, h.isUnder_of_get? ?_⟩
      rw [← h.coherent ns e.1]
      exact Dictionary.get?_of_mem (h.unrepeated.names ns) mem

namespace WatchCache

variable {P : ApiObject → Prop} {previous next : Index}

/-- Objects from `P` have names. -/
def Identified (P : ApiObject → Prop) : Prop := ∀ o, P o → o.Named

/-- The metadata of objects from `P` name a namespace, which may be empty, and a name. -/
def Located (P : ApiObject → Prop) : Prop := ∀ o, P o → ∃ ns name, o.IsAt ns name

theorem Identified.located (h : Identified P) : Located P := by
  intro o ho
  obtain ⟨ns, name, hat, _⟩ := h o ho
  exact ⟨ns, name, hat⟩

/-! ### The changes between two indexes -/

/-- No object, or two objects of one version. -/
def SameVersions : Option ApiObject → Option ApiObject → Prop
  | none, none => True
  | some old, some new => versionsDiffer old new = false
  | _, _ => False

/-- **`changes` cover the difference of two indexes**: without a change under `k`, both hold the
same version there. -/
theorem changes_cover (hp : previous.Housed) (hn : next.Housed) (k : ObjectKey) :
    (∃ c ∈ changes previous next, c.object.IsUnder k) ∨
      SameVersions (previous.get? k) (next.get? k) := by
  cases hnew : next.get? k with
  | none =>
      cases hold : previous.get? k with
      | none => exact Or.inr trivial
      | some old =>
          obtain ⟨j, hj, hm⟩ := Dictionary.mem_of_get? hold
          refine Or.inl ⟨⟨.deleted, old⟩, List.mem_append_right _ ?_, (hp.placed j old hm).congr hj⟩
          refine List.mem_filterMap.mpr ⟨_, hm, ?_⟩
          have gone : Dictionary.has j next.objects = false := by
            rw [Dictionary.has, Dictionary.get?_congr hj,
              show Dictionary.get? k next.objects = none from hnew]
            rfl
          simp [gone]
  | some new =>
      obtain ⟨j, hj, hm⟩ := Dictionary.mem_of_get? hnew
      have before : previous.get? j = previous.get? k := Dictionary.get?_congr hj _
      have told : ∀ c, changeOfListed previous j new = some c → c.object = new →
          ∃ c ∈ changes previous next, c.object.IsUnder k := by
        intro c hc ho
        refine ⟨c, List.mem_append_left _ (List.mem_filterMap.mpr ⟨_, hm, hc⟩), ?_⟩
        rw [ho]
        exact (hn.placed j new hm).congr hj
      cases hold : previous.get? k with
      | none => exact Or.inl (told ⟨.added, new⟩ (by simp [changeOfListed, before, hold]) rfl)
      | some old =>
          cases hpresent : isPresent (some old) with
          | false =>
              exact Or.inl (told ⟨.added, new⟩
                (by simp [changeOfListed, before, hold, hpresent]) rfl)
          | true =>
              cases hv : versionsDiffer old new with
              | true =>
                  exact Or.inl (told ⟨.modified, new⟩
                    (by simp [changeOfListed, before, hold, hpresent, hv]) rfl)
              | false => exact Or.inr hv

theorem changes_cover_named (hid : Identified P) (hp : previous.Textual P) (hn : next.Textual P)
    (ns name : String) :
    (∃ c ∈ changes previous next, c.object.IsAt ns name ∧ ns ≠ "") ∨
      SameVersions (previous.get? ⟨.text ns, .text name⟩) (next.get? ⟨.text ns, .text name⟩) := by
  by_cases hns : ns = ""
  · have none : ∀ {i : Index}, i.Textual P → i.get? ⟨.text ns, .text name⟩ = none := by
      intro i hi
      cases ho : i.get? ⟨.text ns, .text name⟩ with
      | none => rfl
      | some o =>
          obtain ⟨hat, hpo⟩ := hi.isAt_of_get? ho
          obtain ⟨ns', name', hat', hns'⟩ := hid o hpo
          exact absurd ((hat.unique hat').1.symm.trans hns) hns'
    rw [none hp, none hn]
    exact Or.inr trivial
  · rcases changes_cover hp.housed hn.housed ⟨.text ns, .text name⟩ with ⟨c, hc, hu⟩ | hs
    · exact Or.inl ⟨c, hc, hu.isAt, hns⟩
    · exact Or.inr hs

/-! ### List responses -/

theorem mem_entries {response : ApiObject} {es : List (ObjectKey × ApiObject)}
    (h : entries response = .ok es) {k : ObjectKey} {o : ApiObject} (he : (k, o) ∈ es) :
    ∃ objects m, response.items = .ok objects ∧ o ∈ objects ∧ o.metadata = .ok m ∧
      ObjectKey.ofMeta m = .ok k := by
  unfold entries at h
  cases ho : response.items with
  | error f => simp [ho, bind, Except.bind] at h
  | ok objects =>
      simp only [ho, bind, Except.bind] at h
      obtain ⟨x, hx, e⟩ := mem_of_mapM_ok h he
      cases hm : x.metadata with
      | error f => simp [hm] at e
      | ok m =>
          cases hk : ObjectKey.ofMeta m with
          | error f => simp [hm, hk] at e
          | ok j =>
              simp only [hm, hk, pure, Except.pure, Except.ok.injEq, Prod.mk.injEq] at e
              obtain ⟨rfl, rfl⟩ := e
              exact ⟨objects, m, rfl, hx, hm, hk⟩

/-- The entries are objects from `P`, each with the texts that its metadata give. -/
def Placed (P : ApiObject → Prop) (es : List (ObjectKey × ApiObject)) : Prop :=
  ∀ k o, (k, o) ∈ es → P o ∧ ∃ ns name, k = ⟨.text ns, .text name⟩ ∧ o.IsAt ns name

theorem foldl_store_textual {es : List (ObjectKey × ApiObject)} (h : Placed P es) {i : Index}
    (hi : i.Textual P) : (es.foldl (fun i e => i.store e.1 e.2) i).Textual P := by
  induction es generalizing i with
  | nil => exact hi
  | cons e r ih =>
      obtain ⟨k, o⟩ := e
      obtain ⟨hp, ns, name, rfl, hat⟩ := h k o List.mem_cons_self
      exact ih (fun j o' hm => h j o' (List.mem_cons_of_mem _ hm)) (Index.store_textual hi hp hat)

theorem ofList_textual (hl : Located P) {response : ApiObject} {es : List (ObjectKey × ApiObject)}
    (hr : ∀ objects, response.items = .ok objects → ∀ o ∈ objects, P o)
    (he : entries response = .ok es) : (Index.ofList es).Textual P := by
  refine foldl_store_textual ?_ Index.empty_textual
  intro k o hm
  obtain ⟨objects, m, hitems, ho, hmeta, hkey⟩ := mem_entries he hm
  have hp := hr objects hitems o ho
  obtain ⟨ns, name, hat⟩ := hl o hp
  obtain ⟨m', hm', hk'⟩ := hat.ofMeta
  rw [hmeta, Except.ok.injEq] at hm'
  subst hm'
  rw [hkey, Except.ok.injEq] at hk'
  exact ⟨hp, ns, name, hk', hat⟩

theorem replace_eq {response : ApiObject} {es : List (ObjectKey × ApiObject)}
    (he : entries response = .ok es) (c : WatchCache) :
    c.replace response =
      .ok ({ c with index := Index.ofList es }, changes c.index (Index.ofList es)) := by
  simp [replace, he, bind, Except.bind, pure, Except.pure]

theorem replace_error {response : ApiObject} {f : Fault} (he : entries response = .error f)
    (c : WatchCache) : c.replace response = .error f := by
  simp [replace, he, bind, Except.bind]

/-- The objects of the outcome of a list call, with their keys. -/
def listed (response : Except Fault ApiObject) : Except Fault (List (ObjectKey × ApiObject)) :=
  response >>= entries

/-- The objects of a response, if it can be read, are from `P`. -/
def Lists (P : ApiObject → Prop) (response : Except Fault ApiObject) : Prop :=
  ∀ list objects, response = .ok list → list.items = .ok objects → ∀ o ∈ objects, P o

theorem listed_textual (hl : Located P) {response : Except Fault ApiObject}
    {es : List (ObjectKey × ApiObject)} (hr : Lists P response) (h : listed response = .ok es) :
    (Index.ofList es).Textual P := by
  cases response with
  | error f => cases h
  | ok list => exact ofList_textual hl (hr list · rfl) h

/-! ### Events -/

theorem get?_store (i : Index) (j k : ObjectKey) (o : ApiObject) :
    (i.store k o).get? j = if j == k then some o else i.get? j := Dictionary.get?_set _ _ _ _

theorem get?_remove (i : Index) (j k : ObjectKey) :
    (i.remove k).get? j = if j == k then none else i.get? j := Dictionary.get?_erase _ _ _

/-- What an event leaves under the key of its object. -/
def leftBy (kind : ChangeKind) (o : ApiObject) : Option ApiObject :=
  match kind with
  | .deleted => none
  | _ => some o

/-- `apply` changes the index only under the key of its object. -/
theorem apply_located (kind : ChangeKind) {o : ApiObject} {c : WatchCache} {ns name : String}
    (hp : P o) (hat : o.IsAt ns name) (hi : c.index.Textual P) :
    ∃ i, c.apply kind o = .ok ({ c with index := i }, ⟨kind, o⟩) ∧ i.Textual P ∧
      ∀ j, i.get? j =
        if j == (⟨.text ns, .text name⟩ : ObjectKey) then leftBy kind o else c.index.get? j := by
  obtain ⟨m, hm, hk⟩ := hat.ofMeta
  cases kind with
  | added =>
      refine ⟨_, ?_, Index.store_textual hi hp hat, fun j => get?_store _ j _ o⟩
      simp [apply, hm, hk, bind, Except.bind, pure, Except.pure]
  | modified =>
      refine ⟨_, ?_, Index.store_textual hi hp hat, fun j => get?_store _ j _ o⟩
      simp [apply, hm, hk, bind, Except.bind, pure, Except.pure]
  | deleted =>
      cases he : c.index.objects with
      | nil =>
          refine ⟨c.index, ?_, hi, fun j => ?_⟩
          · obtain ⟨version, hv⟩ := hat
            simp [apply, deletedKey?, hv, he, Key.ofJson, bind, Except.bind, pure, Except.pure]
          · simp [Index.get?, he, Dictionary.get?, leftBy]
      | cons e r =>
          refine ⟨c.index.remove ⟨.text ns, .text name⟩, ?_, Index.remove_textual hi _,
            fun j => get?_remove _ j _⟩
          simp [apply, deletedKey?, hm, hk, he, bind, Except.bind, pure, Except.pure, Functor.map,
            Except.map]

theorem apply_other_namespace {kind : ChangeKind} {o : ApiObject} {i i' : Index}
    {ns name other : String} (hother : other ≠ ns)
    (h : ∀ j, i'.get? j =
      if j == (⟨.text ns, .text name⟩ : ObjectKey) then leftBy kind o else i.get? j) (n : String) :
    i'.get? ⟨.text other, .text n⟩ = i.get? ⟨.text other, .text n⟩ := by
  rw [h, if_neg]
  rw [ObjectKey.beq_iff]
  simp [hother]

end WatchCache

namespace CacheHost

variable {S : Type} {h : CacheHost S}

theorem relist_unlisted {response : Except Fault ApiObject} {f : Fault}
    (hr : WatchCache.listed response = .error f) (s : S) : (h.relist response s).2 = s := by
  cases response with
  | error e => rfl
  | ok list =>
      have he : WatchCache.entries list = .error f := hr
      simp [CacheHost.relist, WatchCache.replace_error he]

theorem relist_listed {response : Except Fault ApiObject} {es : List (ObjectKey × ApiObject)}
    (hr : WatchCache.listed response = .ok es) (s : S) : (h.relist response s).2 =
      h.markSynced (Index.ofList es).objects.length
        (h.deliverAll (WatchCache.changes (h.cache s).index (Index.ofList es))
          (h.setCache { h.cache s with index := Index.ofList es } s)) := by
  cases response with
  | error e => cases hr
  | ok list =>
      have he : WatchCache.entries list = .ok es := hr
      simp [CacheHost.relist, WatchCache.replace_eq he]

theorem apply_applied {kind : ChangeKind} {o : ApiObject} {s : S} {c : WatchCache} {d : Change}
    (ha : (h.cache s).apply kind o = .ok (c, d)) :
    h.apply kind o s = (.ok (), h.deliver (h.setCache c s) d) := by
  unfold CacheHost.apply
  rw [ha]

/-! ### Delivery

What the log and the handlers keep is kept when changes are told. -/

section deliveries

variable {R : S → S → Prop}

theorem tell_rel (trans : ∀ {s s' s''}, R s s' → R s' s'' → R s s'')
    (hlog : ∀ l s, R s (h.log l s)) {handler : Change → Act S Unit} {c : Change} {s : S}
    (hr : R s (handler c s).2) : R s (h.tell c s handler) := by
  unfold tell
  rcases hs : handler c s with ⟨r, t⟩
  rw [hs] at hr
  cases r with
  | ok _ => exact hr
  | error f => exact trans hr (hlog _ t)

theorem foldl_tell_rel (refl : ∀ s, R s s) (trans : ∀ {s s' s''}, R s s' → R s' s'' → R s s'')
    (hlog : ∀ l s, R s (h.log l s)) {handlers : List (Change → Act S Unit)} {c : Change}
    (hr : ∀ handler ∈ handlers, ∀ s, R s (handler c s).2) (s : S) :
    R s (handlers.foldl (h.tell c) s) := by
  induction handlers generalizing s with
  | nil => exact refl s
  | cons handler r ih =>
      rw [List.forall_mem_cons] at hr
      have first : R s (h.tell c s handler) := tell_rel (R := R) trans hlog (hr.1 s)
      exact trans first (ih hr.2 _)

theorem deliverAll_rel (refl : ∀ s, R s s) (trans : ∀ {s s' s''}, R s s' → R s' s'' → R s s'')
    (hlog : ∀ l s, R s (h.log l s))
    (hr : ∀ s, ∀ handler ∈ h.handlers s, ∀ c s', R s' (handler c s').2) (cs : List Change)
    (s : S) : R s (h.deliverAll cs s) := by
  induction cs generalizing s with
  | nil => exact refl s
  | cons c r ih =>
      have told : R s (h.deliver s c) :=
        foldl_tell_rel (R := R) refl trans hlog (fun handler hh => hr s handler hh c) s
      exact trans told (ih _)

end deliveries

end CacheHost

end QuotaWarden
