import QuotaWarden.Proofs.CacheChanges
import QuotaWarden.WatchCache.Script

/-! # A listener is told of every change

A listener that keeps the version of every object that it was told of, and drops the objects that it
was told are deleted, holds what the cache holds: after every list response, every event and every
round of synthetic changes, and whatever other handlers do.

* `WatchCache.changes_difference` says exactly which changes a list response is told by: for each
  key the `Change.difference` of the object before and the object after; for labelled objects those
  are the changes `Change.between` the two.
* `CacheHost.Listener` are the laws of surroundings in which a listener is registered, and
  `CacheHost.Heard` the states that operations lead to.
* `CacheHost.heard_complete` is the main result.

Objects are `Labelled`: they are not null, and their namespaces, names and versions are texts. -/

namespace QuotaWarden

namespace ApiObject

/-- An object that is not null, with texts as namespace, name and version. -/
def Labelled (o : ApiObject) : Prop :=
  o ≠ .untyped .null ∧ ∃ ns name version, o.metadata = .ok ⟨.str ns, .str name, .str version⟩

/-- The version of an object, if it is a text. -/
def versionText (o : ApiObject) : String :=
  match o.metadata with
  | .ok ⟨_, _, .str version⟩ => version
  | _ => ""

theorem Labelled.located : WatchCache.Located Labelled := by
  rintro o ⟨_, ns, name, version, hv⟩
  exact ⟨ns, name, .str version, hv⟩

theorem Labelled.isPresent {o : ApiObject} (h : o.Labelled) :
    WatchCache.isPresent (some o) = true := by
  unfold WatchCache.isPresent
  split
  · next hn => exact absurd hn (by simp)
  · next hn => exact absurd (Option.some.inj hn) h.1
  · rfl

theorem Labelled.versionsDiffer {old new : ApiObject} (h : old.Labelled) (h' : new.Labelled) :
    WatchCache.versionsDiffer old new = !decide (old.versionText = new.versionText) := by
  obtain ⟨_, _, _, v, hv⟩ := h
  obtain ⟨_, _, _, v', hv'⟩ := h'
  simp [WatchCache.versionsDiffer, versionText, hv, hv']

end ApiObject

namespace Change

/-- A change is about the object of a key. -/
def about (k : ObjectKey) (c : Change) : Bool := c.object.key?.any (· == k)

theorem about_of_isAt {o : ApiObject} {ns name : String} (h : o.IsAt ns name) (kind : ChangeKind)
    (k : ObjectKey) : about k ⟨kind, o⟩ = ((⟨.text ns, .text name⟩ : ObjectKey) == k) := by
  simp [about, h.key?]

theorem about_of_isUnder {o : ApiObject} {j : ObjectKey} (h : o.IsUnder j) (kind : ChangeKind)
    (k : ObjectKey) : about k ⟨kind, o⟩ = (j == k) := by
  obtain ⟨i, hi, hij⟩ := h
  simp only [about, hi, Option.any_some]
  exact BEq.congr_left hij

/-- The changes from what was held under a key to what is held there now. -/
def between : Option ApiObject → Option ApiObject → List Change
  | none, none => []
  | none, some new => [⟨.added, new⟩]
  | some old, none => [⟨.deleted, old⟩]
  | some old, some new => if old.versionText = new.versionText then [] else [⟨.modified, new⟩]

/-- The same for objects of any shape: null counts as nothing that was held. -/
def difference : Option ApiObject → Option ApiObject → List Change
  | none, none => []
  | none, some new => [⟨.added, new⟩]
  | some old, none => [⟨.deleted, old⟩]
  | some old, some new =>
    if !WatchCache.isPresent (some old) then [⟨.added, new⟩]
    else if WatchCache.versionsDiffer old new then [⟨.modified, new⟩]
    else []

theorem difference_labelled {old new : Option ApiObject} (ho : ∀ o ∈ old, o.Labelled)
    (hn : ∀ o ∈ new, o.Labelled) : difference old new = between old new := by
  cases old with
  | none => cases new <;> rfl
  | some old =>
      cases new with
      | none => rfl
      | some new =>
          have hold := ho old rfl
          by_cases hv : old.versionText = new.versionText
          · simp [difference, between, hold.isPresent, hold.versionsDiffer (hn new rfl), hv]
          · simp [difference, between, hold.isPresent, hold.versionsDiffer (hn new rfl), hv]

theorem between_self (o : Option ApiObject) : between o o = [] := by
  cases o with
  | none => rfl
  | some o => exact if_pos rfl

/-- The version that is left under the key of the object of a change. -/
def leaves (c : Change) : Option String :=
  (WatchCache.leftBy c.kind c.object).map ApiObject.versionText

theorem foldl_between (old new : Option ApiObject) :
    (between old new).foldl (fun _ c => c.leaves) (old.map (·.versionText)) =
      new.map (·.versionText) := by
  cases old with
  | none => cases new <;> rfl
  | some old =>
      cases new with
      | none => rfl
      | some new =>
          by_cases h : old.versionText = new.versionText
          · simp [between, h]
          · simp [between, h, leaves, WatchCache.leftBy]

end Change

/-! ### What a listener keeps -/

/-- A listener that is told of a change keeps the version of its object, or drops the object. -/
def noted (kept : List (ObjectKey × String)) (c : Change) : List (ObjectKey × String) :=
  match c.object.key? with
  | none => kept
  | some k =>
    match c.kind with
    | .deleted => Dictionary.erase k kept
    | _ => Dictionary.set k c.object.versionText kept

/-- The versions that a listener keeps after it was told of changes. -/
def ledger (told : List Change) : List (ObjectKey × String) := told.foldl noted []

theorem get?_noted (k : ObjectKey) (kept : List (ObjectKey × String)) (c : Change) :
    Dictionary.get? k (noted kept c) =
      if c.about k then c.leaves else Dictionary.get? k kept := by
  unfold noted Change.about
  cases c.object.key? with
  | none => rfl
  | some j =>
      have comm : (k == j) = (j == k) := BEq.comm
      cases hc : c.kind with
      | deleted => simp [Change.leaves, hc, WatchCache.leftBy, Dictionary.get?_erase, comm]
      | added => simp [Change.leaves, hc, WatchCache.leftBy, Dictionary.get?_set, comm]
      | modified => simp [Change.leaves, hc, WatchCache.leftBy, Dictionary.get?_set, comm]

/-- What is noted under `k` depends on the changes about `k` alone. -/
theorem get?_foldl_noted (k : ObjectKey) (cs : List Change) (kept : List (ObjectKey × String)) :
    Dictionary.get? k (cs.foldl noted kept) =
      (cs.filter (Change.about k)).foldl (fun _ c => c.leaves) (Dictionary.get? k kept) := by
  induction cs generalizing kept with
  | nil => rfl
  | cons c r ih =>
      rw [List.foldl_cons, ih, get?_noted, List.filter_cons]
      split <;> rfl

/-! ### The changes about a key -/

namespace WatchCache

variable {previous next : Index}

theorem filter_about {i : Index} (hi : i.Housed) (k : ObjectKey)
    {f : ObjectKey × ApiObject → Option Change} {g : ApiObject → Option Change}
    (hobject : ∀ e c, f e = some c → c.object = e.2)
    (hg : ∀ e : ObjectKey × ApiObject, (e.1 == k) = true → f e = g e.2) :
    (i.objects.filterMap f).filter (Change.about k) = ((i.get? k).bind g).toList := by
  refine Dictionary.filter_filterMap hi.unrepeated.objects ?_ fun e _ => hg e
  rintro ⟨j, o⟩ he ⟨kind, x⟩ hc
  obtain rfl : x = o := hobject _ _ hc
  exact Change.about_of_isUnder (hi.placed j x he) kind k

theorem changeOfListed_object {k : ObjectKey} {o : ApiObject} {c : Change}
    (h : changeOfListed previous k o = some c) : c.object = o := by
  unfold changeOfListed at h
  split at h
  · split at h
    · cases h
      rfl
    · split at h
      · cases h
        rfl
      · cases h
  · cases h
    rfl

theorem changeOfListed_toList (previous : Index) (k : ObjectKey) (o : ApiObject) :
    (changeOfListed previous k o).toList = Change.difference (previous.get? k) (some o) := by
  unfold changeOfListed
  cases previous.get? k with
  | none => rfl
  | some old =>
      dsimp only [Change.difference]
      split
      · rfl
      · split <;> rfl

/-- **`changes` by key**: about `k` there is `Change.difference` of the objects under `k`. -/
theorem changes_difference (hp : previous.Housed) (hn : next.Housed) (k : ObjectKey) :
    (changes previous next).filter (Change.about k) =
      Change.difference (previous.get? k) (next.get? k) := by
  have listed := filter_about (f := fun e => changeOfListed previous e.1 e.2) hn k
    (fun _ _ h => changeOfListed_object h) (g := changeOfListed previous k) (by
      intro e he
      unfold changeOfListed Index.get?
      rw [Dictionary.get?_congr he])
  have deleted := filter_about hp k
    (f := fun e => if Dictionary.has e.1 next.objects then none else some ⟨.deleted, e.2⟩)
    (g := fun o => if Dictionary.has k next.objects then none else some ⟨.deleted, o⟩) (by
      intro e c hc
      split at hc
      · cases hc
      · cases hc
        rfl) (by
      intro e he
      unfold Dictionary.has
      rw [Dictionary.get?_congr he])
  have there : Dictionary.has k next.objects = (next.get? k).isSome := rfl
  rw [changes, List.filter_append, listed, deleted, there]
  cases next.get? k with
  | none => cases previous.get? k <;> rfl
  | some new =>
      rw [Option.bind_some, changeOfListed_toList previous k new]
      cases previous.get? k <;> simp

theorem changes_about (hp : previous.Textual ApiObject.Labelled)
    (hn : next.Textual ApiObject.Labelled) (k : ObjectKey) :
    (changes previous next).filter (Change.about k) =
      Change.between (previous.get? k) (next.get? k) := by
  rw [changes_difference hp.housed hn.housed]
  exact Change.difference_labelled (fun _ ho => (hp.get?_placed ho).1)
    fun _ ho => (hn.get?_placed ho).1

theorem labelled_of_mem_changes (hp : previous.Textual ApiObject.Labelled)
    (hn : next.Textual ApiObject.Labelled) {c : Change} (hc : c ∈ changes previous next) :
    c.object.Labelled := by
  rcases List.mem_append.mp hc with hc | hc
  · obtain ⟨e, he, h⟩ := List.mem_filterMap.mp hc
    rw [changeOfListed_object h]
    exact (hn.placed e.1 e.2 he).1
  · obtain ⟨e, he, h⟩ := List.mem_filterMap.mp hc
    split at h
    · cases h
    · cases h
      exact (hp.placed e.1 e.2 he).1

theorem exists_about {c : Change} (h : c.object.Labelled) : ∃ k, c.about k = true := by
  obtain ⟨ns, name, hat⟩ := ApiObject.Labelled.located _ h
  exact ⟨_, (Change.about_of_isAt hat c.kind _).trans (BEq.refl _)⟩

theorem changes_self {i : Index} (hi : i.Textual ApiObject.Labelled) : changes i i = [] := by
  refine List.eq_nil_iff_forall_not_mem.mpr fun c hc => ?_
  obtain ⟨k, hk⟩ := exists_about (labelled_of_mem_changes hi hi hc)
  have hm : c ∈ (changes i i).filter (Change.about k) := List.mem_filter.mpr ⟨hc, hk⟩
  rw [changes_about hi hi, Change.between_self] at hm
  exact absurd hm List.not_mem_nil

/-- The synthetic changes about `k` leave the version under `k` as it is. -/
theorem synthetic_about {c : WatchCache} (hi : c.index.Textual ApiObject.Labelled)
    (k : ObjectKey) :
    (c.synthetic.filter (Change.about k)).foldl (fun _ c => c.leaves)
      ((c.index.get? k).map (·.versionText)) = (c.index.get? k).map (·.versionText) := by
  unfold synthetic
  split
  · have told := filter_about hi.housed k (f := fun e => some ⟨.modified, e.2⟩)
      (g := fun o => some ⟨.modified, o⟩) (fun e c hc => by cases hc; rfl) fun _ _ => rfl
    rw [List.filterMap_eq_map'] at told
    rw [told]
    cases c.index.get? k <;> rfl
  · rfl

end WatchCache

/-! ### Listeners -/

namespace CacheHost

open WatchCache (Lists)

variable {S : Type} {h : CacheHost S} {told : S → List Change} {registered : S → Prop}
  {s s' s'' : S} {cs ds : List Change}

/-- From one state to the next a listener was told of changes, and stays registered; the cache is
left alone. -/
structure Hears (h : CacheHost S) (told : S → List Change) (registered : S → Prop)
    (cs : List Change) (s s' : S) : Prop where
  cache : h.cache s' = h.cache s
  told : told s' = told s ++ cs
  registered : registered s'

theorem Hears.nothing (hs : registered s) : h.Hears told registered [] s s :=
  ⟨rfl, (List.append_nil _).symm, hs⟩

theorem Hears.trans (hs : h.Hears told registered cs s s')
    (hs' : h.Hears told registered ds s' s'') : h.Hears told registered (cs ++ ds) s s'' :=
  ⟨hs'.cache.trans hs.cache, by rw [hs'.told, hs.told, List.append_assoc], hs'.registered⟩

theorem Hears.quietly (hs : h.Hears told registered cs s s')
    (hs' : h.Hears told registered [] s' s'') : h.Hears told registered cs s s'' := by
  have both := hs.trans hs'
  rwa [List.append_nil] at both

/-- Surroundings in which a listener is registered, perhaps beside other handlers. It notes each
change, and none of the other handlers, which may fail, touches what it noted or the cache. -/
structure Listener (h : CacheHost S) (told : S → List Change) (registered : S → Prop) : Prop where
  setCache : ∀ c s, registered s →
    h.cache (h.setCache c s) = c ∧ told (h.setCache c s) = told s ∧ registered (h.setCache c s)
  log : ∀ l s, registered s → h.Hears told registered [] s (h.log l s)
  handlers : ∀ s, registered s → ∃ before note after, h.handlers s = before ++ note :: after ∧
    (∀ c s, registered s → h.Hears told registered [c] s (note c s).2) ∧
    ∀ other ∈ before ++ after, ∀ c s, registered s → h.Hears told registered [] s (other c s).2

/-! ### Delivery -/

/-- `tell` adds at most a line in the log to what a handler does. -/
theorem Listener.tell (hl : h.Listener told registered) {c : Change}
    {handler : Change → Act S Unit} (hs : h.Hears told registered cs s (handler c s).2) :
    h.Hears told registered cs s (h.tell c s handler) := by
  unfold CacheHost.tell
  rcases hr : handler c s with ⟨r, t⟩
  rw [hr] at hs
  cases r with
  | ok _ => exact hs
  | error f => exact hs.quietly (hl.log _ t hs.registered)

theorem Listener.foldl_tell (hl : h.Listener told registered) {c : Change}
    {others : List (Change → Act S Unit)}
    (ho : ∀ other ∈ others, ∀ c s, registered s →
      h.Hears told registered [] s (other c s).2) (hs : registered s) :
    h.Hears told registered [] s (others.foldl (h.tell c) s) :=
  foldl_tell_rel (R := fun s s' => registered s → h.Hears told registered [] s s')
    (fun _ hs => Hears.nothing hs) (fun first second hs => (first hs).quietly (second (first hs).3))
    hl.log (fun other hm s hs => ho other hm c s hs) s hs

theorem Listener.deliver (hl : h.Listener told registered) (hs : registered s) (c : Change) :
    h.Hears told registered [c] s (h.deliver s c) := by
  obtain ⟨before, note, after, e, hnote, hother⟩ := hl.handlers s hs
  unfold CacheHost.deliver
  rw [e, List.foldl_append, List.foldl_cons]
  have first := hl.foldl_tell (c := c)
    (fun other ho => hother other (List.mem_append_left _ ho)) hs
  have second := first.trans (hl.tell (hnote c _ first.registered))
  have third := hl.foldl_tell (c := c)
    (fun other ho => hother other (List.mem_append_right _ ho)) second.registered
  simpa using second.trans third

theorem Listener.deliverAll (hl : h.Listener told registered) (hs : registered s)
    (cs : List Change) : h.Hears told registered cs s (h.deliverAll cs s) := by
  induction cs generalizing s with
  | nil => exact Hears.nothing hs
  | cons c r ih =>
      have first := hl.deliver hs c
      exact first.trans (ih first.registered)

theorem Listener.markSynced (hl : h.Listener told registered) (hs : registered s) (n : Nat) :
    (h.cache (h.markSynced n s)).index = (h.cache s).index ∧
      told (h.markSynced n s) = told s ∧ registered (h.markSynced n s) := by
  unfold CacheHost.markSynced
  split
  · exact ⟨rfl, rfl, hs⟩
  · obtain ⟨hcache, htold, hreg⟩ := hl.setCache { h.cache s with synced := true } s hs
    have logged := fun l => hl.log l _ hreg
    refine ⟨?_, ?_, (logged _).registered⟩
    · unfold report
      rw [(logged _).cache, hcache]
    · unfold report
      rw [(logged _).told, htold, List.append_nil]

theorem Listener.relist (hl : h.Listener told registered) (hs : registered s)
    {response : Except Fault ApiObject} {es : List (ObjectKey × ApiObject)}
    (hr : WatchCache.listed response = .ok es) :
    (h.cache (h.relist response s).2).index = Index.ofList es ∧
      told (h.relist response s).2 =
        told s ++ WatchCache.changes (h.cache s).index (Index.ofList es) ∧
      registered (h.relist response s).2 := by
  obtain ⟨hcache, htold, hreg⟩ := hl.setCache { h.cache s with index := Index.ofList es } s hs
  have delivered := hl.deliverAll hreg (WatchCache.changes (h.cache s).index (Index.ofList es))
  obtain ⟨hindex, hmarked, hreg'⟩ :=
    hl.markSynced delivered.registered (Index.ofList es).objects.length
  rw [relist_listed hr]
  refine ⟨?_, ?_, hreg'⟩
  · rw [hindex, delivered.cache, hcache]
  · rw [hmarked, delivered.told, htold]

theorem Listener.event (hl : h.Listener told registered) (hs : registered s) {kind : ChangeKind}
    {o : ApiObject} {i : Index} {c : Change}
    (ha : (h.cache s).apply kind o = .ok ({ h.cache s with index := i }, c)) :
    (h.cache (h.apply kind o s).2).index = i ∧ told (h.apply kind o s).2 = told s ++ [c] ∧
      registered (h.apply kind o s).2 := by
  obtain ⟨hcache, htold, hreg⟩ := hl.setCache { h.cache s with index := i } s hs
  have delivered := hl.deliver hreg c
  rw [apply_applied ha]
  refine ⟨?_, ?_, delivered.registered⟩
  · rw [delivered.cache, hcache]
  · rw [delivered.told, htold]

/-! ### What holds between operations -/

/-- States that operations lead to from an empty cache, with the listener registered from the
start: list responses and failures, events, rounds of synthetic changes, and whatever happens
elsewhere, as when other handlers are registered. -/
inductive Heard (h : CacheHost S) (told : S → List Change) (registered : S → Prop) : S → Prop
  | start {s : S} (kind : String) : h.cache s = .empty kind → told s = [] → registered s →
      Heard h told registered s
  | relist {s : S} (response : Except Fault ApiObject) : Heard h told registered s →
      Lists ApiObject.Labelled response → Heard h told registered (h.relist response s).2
  | event {s : S} (kind : ChangeKind) (o : ApiObject) : Heard h told registered s →
      o.Labelled → Heard h told registered (h.apply kind o s).2
  | resync {s : S} : Heard h told registered s → Heard h told registered (h.resync s)
  | elsewhere {s s' : S} : Heard h told registered s → h.Hears told registered [] s s' →
      Heard h told registered s'

/-- The listener is registered, and keeps for each key the version that the cache holds. -/
structure Kept (h : CacheHost S) (told : S → List Change) (registered : S → Prop) (s : S) :
    Prop where
  registered : registered s
  textual : (h.cache s).index.Textual ApiObject.Labelled
  agrees : ∀ k, Dictionary.get? k (ledger (told s)) =
    ((h.cache s).index.get? k).map (·.versionText)

/-- `Kept` goes on if the changes lead from the versions before to those after. -/
theorem Kept.of_told (hk : h.Kept told registered s) (hreg : registered s')
    (htext : (h.cache s').index.Textual ApiObject.Labelled) (htold : told s' = told s ++ cs)
    (hcs : ∀ k, (cs.filter (Change.about k)).foldl (fun _ c => c.leaves)
      (((h.cache s).index.get? k).map (·.versionText)) =
        ((h.cache s').index.get? k).map (·.versionText)) : h.Kept told registered s' := by
  refine ⟨hreg, htext, fun k => ?_⟩
  rw [← hcs k, ← hk.agrees k, htold, ledger, List.foldl_append, get?_foldl_noted]
  rfl

theorem Kept.relist (hl : h.Listener told registered) (hk : h.Kept told registered s)
    {response : Except Fault ApiObject} (hlabelled : Lists ApiObject.Labelled response) :
    h.Kept told registered (h.relist response s).2 := by
  cases hr : WatchCache.listed response with
  | error f =>
      rw [relist_unlisted hr]
      exact hk
  | ok es =>
      obtain ⟨hindex, htold, hreg⟩ := hl.relist hk.registered hr
      have htext := WatchCache.listed_textual ApiObject.Labelled.located hlabelled hr
      rw [← hindex] at htold htext
      refine hk.of_told hreg htext htold fun k => ?_
      rw [WatchCache.changes_about hk.textual htext]
      exact Change.foldl_between _ _

theorem Kept.event (hl : h.Listener told registered) (hk : h.Kept told registered s)
    (kind : ChangeKind) {o : ApiObject} (ho : o.Labelled) :
    h.Kept told registered (h.apply kind o s).2 := by
  obtain ⟨ns, name, hat⟩ := ApiObject.Labelled.located o ho
  obtain ⟨i, hi, htext, left⟩ := WatchCache.apply_located kind ho hat hk.textual
  obtain ⟨hindex, htold, hreg⟩ := hl.event hk.registered hi
  rw [← hindex] at htext left
  refine hk.of_told hreg htext htold fun k => ?_
  have comm : (k == (⟨.text ns, .text name⟩ : ObjectKey)) =
      ((⟨.text ns, .text name⟩ : ObjectKey) == k) := BEq.comm
  rw [left k, comm, List.filter_singleton, Change.about_of_isAt hat]
  cases (⟨.text ns, .text name⟩ : ObjectKey) == k with
  | true => rfl
  | false => rfl

theorem Kept.resync (hl : h.Listener told registered) (hk : h.Kept told registered s) :
    h.Kept told registered (h.resync s) := by
  have delivered := hl.deliverAll hk.registered (h.cache s).synthetic
  have hindex : (h.cache (h.resync s)).index = (h.cache s).index :=
    congrArg WatchCache.index delivered.cache
  refine hk.of_told delivered.registered (by rw [hindex]; exact hk.textual) delivered.told ?_
  intro k
  rw [hindex]
  exact WatchCache.synthetic_about hk.textual k

theorem Heard.kept (hl : h.Listener told registered) (hs : h.Heard told registered s) :
    h.Kept told registered s := by
  induction hs with
  | start kind hcache htold hreg =>
      refine ⟨hreg, ?_, fun k => ?_⟩
      · rw [hcache]
        exact Index.empty_textual
      · rw [hcache, htold]
        rfl
  | relist response _ hlabelled ih => exact ih.relist hl hlabelled
  | event kind o _ ho ih => exact ih.event hl kind ho
  | resync _ ih => exact ih.resync hl
  | elsewhere _ hs ih =>
      have hindex := congrArg WatchCache.index hs.cache
      refine ih.of_told hs.registered (by rw [hindex]; exact ih.textual) hs.told ?_
      intro k
      rw [hindex]
      rfl

/-- **A listener is told of every change.** After every operation it keeps exactly the versions of
the objects in the cache. The changes by which a list response is told are, for each key, those
between the object before and the object after, so at most one; and the same response applied once
more is told by nothing. -/
theorem heard_complete (hl : h.Listener told registered) (hs : h.Heard told registered s) :
    (∀ k, Dictionary.get? k (ledger (told s)) =
        ((h.cache s).index.get? k).map (·.versionText)) ∧
      ∀ response, Lists ApiObject.Labelled response →
        let after := (h.relist response s).2
        (∃ cs, told after = told s ++ cs ∧ (∀ c ∈ cs, ∃ k, c.about k = true) ∧
          ∀ k, cs.filter (Change.about k) =
            Change.between ((h.cache s).index.get? k) ((h.cache after).index.get? k)) ∧
        told (h.relist response after).2 = told after := by
  have hk := hs.kept hl
  refine ⟨hk.agrees, fun response hlabelled => ?_⟩
  intro after
  have hk' : h.Kept told registered after := hk.relist hl hlabelled
  cases hr : WatchCache.listed response with
  | error f =>
      have same : after = s := relist_unlisted hr s
      refine ⟨⟨[], ?_, by simp, fun k => ?_⟩, ?_⟩
      · rw [same, List.append_nil]
      · rw [same, Change.between_self]
        rfl
      · rw [relist_unlisted hr]
  | ok es =>
      obtain ⟨hindex, htold, _⟩ := hl.relist hk.registered hr
      obtain ⟨_, hagain, _⟩ := hl.relist hk'.registered hr
      replace hindex : (h.cache after).index = Index.ofList es := hindex
      rw [← hindex] at htold hagain
      refine ⟨⟨_, htold, ?_, WatchCache.changes_about hk.textual hk'.textual⟩, ?_⟩
      · intro c hc
        exact WatchCache.exists_about
          (WatchCache.labelled_of_mem_changes hk.textual hk'.textual hc)
      · rw [hagain, WatchCache.changes_self hk'.textual, List.append_nil]

end CacheHost

/-! ### A cache on a script -/

namespace ScriptState

variable {τ : Type}

/-- What the handlers of a name were told. -/
def toldTo (name : String) (s : ScriptState τ) : List Change :=
  (s.told.filter (·.1 = name)).map (·.2)

/-- One handler of a name is registered. -/
def Registers (name : String) (s : ScriptState τ) : Prop :=
  ∃ before fails after, s.handlers = before ++ (name, fails) :: after ∧
    ∀ other ∈ before ++ after, other.1 ≠ name

theorem handler_hears [TimeScale τ] (settings : WatchSettings τ) {name : String} (fails : Bool)
    (c : Change) {s : ScriptState τ} (hs : s.Registers name) :
    (scripted settings).Hears (toldTo name) (Registers name) [c] s
      (handler (name, fails) c s).2 :=
  ⟨rfl, by simp [handler, toldTo], hs⟩

theorem handler_quiet [TimeScale τ] (settings : WatchSettings τ) {name : String}
    {other : String × Bool} (ho : other.1 ≠ name) (c : Change) {s : ScriptState τ}
    (hs : s.Registers name) :
    (scripted settings).Hears (toldTo name) (Registers name) [] s (handler other c s).2 :=
  ⟨rfl, by simp [handler, toldTo, ho], hs⟩

/-- A handler of a script is a `Listener`, whichever other handlers fail. -/
theorem listener [TimeScale τ] (settings : WatchSettings τ) (name : String) :
    (scripted settings).Listener (toldTo name) (Registers name) := by
  refine ⟨fun _ _ hs => ⟨rfl, rfl, hs⟩, fun _ _ hs => ⟨rfl, (List.append_nil _).symm, hs⟩, ?_⟩
  rintro s ⟨before, fails, after, e, others⟩
  refine ⟨before.map handler, handler (name, fails), after.map handler, ?_,
    fun c s hs => handler_hears settings fails c hs, ?_⟩
  · exact (congrArg (List.map handler) e).trans (by simp)
  · intro other ho c s hs
    rw [← List.map_append] at ho
    obtain ⟨x, hx, rfl⟩ := List.mem_map.mp ho
    exact handler_quiet settings (others x hx) c hs

end ScriptState

namespace CacheHost

/-- A pod of the namespace `team-a`. -/
def labelledPod (name version : String) : ApiObject :=
  .untyped (.obj [("metadata", .obj [("name", .str name), ("namespace", .str "team-a"),
    ("resourceVersion", .str version)])])

/-- A list response with two pods. -/
def twoListed : Except Fault ApiObject :=
  .ok (.list [labelledPod "web" "1", labelledPod "worker" "2"] (some "2"))

theorem twoListed_labelled : WatchCache.Lists ApiObject.Labelled twoListed := by
  rintro _ _ ⟨⟩ ⟨⟩ o ho
  rcases List.mem_cons.mp ho with rfl | ho
  · exact ⟨by simp [labelledPod], "team-a", "web", "1", rfl⟩
  · rw [List.mem_singleton.mp ho]
    exact ⟨by simp [labelledPod], "team-a", "worker", "2", rfl⟩

/-- Two pods are listed and one is deleted, while another handler fails at every change: the
listener keeps the version of the pod that is left, and a response with both pods tells it of the
one that is new again. -/
theorem heard_complete_two_pods :
    let h := (scripted (⟨0, .int 0, 0, 0⟩ : WatchSettings Float)).toCacheHost
    let told := ScriptState.toldTo "ledger"
    let registered := ScriptState.Registers "ledger"
    let start := ScriptState.start (.empty "pods") [("noisy", true), ("ledger", false)] 0 false
    let s := (h.apply .deleted (labelledPod "web" "3") (h.relist twoListed start).2).2
    h.Listener told registered ∧ h.Heard told registered s ∧
      WatchCache.Lists ApiObject.Labelled twoListed ∧
      Dictionary.get? ⟨.text "team-a", .text "worker"⟩ (ledger (told s)) = some "2" ∧
      Dictionary.get? ⟨.text "team-a", .text "web"⟩ (ledger (told s)) = none ∧
      told (h.relist twoListed (h.relist twoListed s).2).2 = told (h.relist twoListed s).2 := by
  intro h told registered start s
  have listens : h.Listener told registered := ScriptState.listener _ _
  have begun : h.Heard told registered start := by
    refine .start "pods" rfl rfl ⟨[("noisy", true)], false, [], rfl, ?_⟩
    intro other ho
    rw [List.mem_singleton.mp ho]
    decide
  have heard : h.Heard told registered s :=
    .event .deleted _ (.relist twoListed begun twoListed_labelled)
      ⟨by simp [labelledPod], "team-a", "web", "3", rfl⟩
  obtain ⟨kept, relists⟩ := heard_complete listens heard
  refine ⟨listens, heard, twoListed_labelled, ?_, ?_, (relists _ twoListed_labelled).2⟩
  · rw [kept]
    rfl
  · rw [kept]
    rfl

end CacheHost

end QuotaWarden
