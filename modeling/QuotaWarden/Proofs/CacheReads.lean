import QuotaWarden.Cluster.InMemory
import QuotaWarden.Proofs.CacheContents
import QuotaWarden.Proofs.PolicyReading

/-! # The reads of a cache agree

A cache keeps every object twice and reads the two forms in different ways: `WatchCache.list` sorts
all objects, `WatchCache.listIn` those of one namespace, and `WatchCache.first?` looks for the least
name without sorting. In every state of a cache that is fed with objects whose namespaces and names
are texts the three give the same objects.

* `CacheHost.Fed` are the states that list responses, events and rounds of synthetic changes lead
  to.
* `CacheHost.fed_reads` is the main result; with it the policy that admission reads
  (`governingPolicy?`) is the first of those that a reconcile reads (`policiesOf`).
* `CacheHost.fed_unlisted`: before the first list response nothing is read, whatever is held. -/

namespace QuotaWarden

/-- The metadata of an object give it a namespace and a name that are texts. -/
def ApiObject.HasTexts (o : ApiObject) : Prop := ∃ ns name, o.IsAt ns name

theorem Index.Textual.hasTexts {P : ApiObject → Prop} {i : Index} (h : i.Textual P) :
    i.Textual ApiObject.HasTexts := by
  refine ⟨h.coherent, h.unrepeated, fun k o hk => ?_⟩
  obtain ⟨_, ns, name, hkey, hat⟩ := h.placed k o hk
  exact ⟨⟨ns, name, hat⟩, ns, name, hkey, hat⟩

/-- Whether an object is in a namespace. -/
def ApiObject.isIn (ns : String) (o : ApiObject) : Bool := o.key?.any (·.ns == .text ns)

theorem ApiObject.IsAt.isIn {o : ApiObject} {ns name : String} (h : o.IsAt ns name)
    (other : String) : o.isIn other = decide (ns = other) := by
  simp [ApiObject.isIn, h.key?]

/-! ### No empty namespace -/

namespace Index

variable {i : Index}

/-- No namespace has an entry without objects. -/
def Occupied (i : Index) : Prop := ∀ e ∈ i.byNamespace, e.2 ≠ []

theorem empty_occupied : empty.Occupied := by simp [Occupied, empty]

theorem mem_set_occupied {d : List (Key × List (Key × ApiObject))} (h : ∀ e ∈ d, e.2 ≠ [])
    (k : Key) {inner : List (Key × ApiObject)} (hi : inner ≠ []) :
    ∀ e ∈ Dictionary.set k inner d, e.2 ≠ [] := by
  intro e he
  rcases Dictionary.mem_set he with he | rfl | ⟨_, _, rfl⟩
  · exact h e he
  · exact hi
  · exact hi

theorem store_occupied (h : i.Occupied) (k : ObjectKey) (o : ApiObject) :
    (i.store k o).Occupied := by
  refine mem_set_occupied h k.ns ?_
  cases i.namespaceOf k.ns with
  | nil => exact List.cons_ne_nil _ _
  | cons e r =>
      rw [Dictionary.set]
      split <;> exact List.cons_ne_nil _ _

theorem remove_occupied (h : i.Occupied) (k : ObjectKey) : (i.remove k).Occupied := by
  unfold Occupied remove
  cases Dictionary.get? k.ns i.byNamespace with
  | none => exact h
  | some inner =>
      dsimp only
      cases he : Dictionary.erase k.name inner with
      | nil => exact fun e hm => h e (Dictionary.mem_of_mem_erase hm)
      | cons e r => exact mem_set_occupied h k.ns (List.cons_ne_nil _ _)

theorem ofList_occupied (es : List (ObjectKey × ApiObject)) : (ofList es).Occupied := by
  have fold : ∀ {i : Index}, i.Occupied →
      (es.foldl (fun i e => i.store e.1 e.2) i).Occupied := by
    induction es with
    | nil => exact id
    | cons e r ih => exact fun hi => ih (store_occupied hi e.1 e.2)
  exact fold empty_occupied

end Index

theorem WatchCache.apply_index {kind : ChangeKind} {o : ApiObject} {c c' : WatchCache} {d : Change}
    (h : c.apply kind o = .ok (c', d)) :
    c'.index = c.index ∨ (∃ k, c'.index = c.index.store k o) ∨
      ∃ k, c'.index = c.index.remove k := by
  unfold apply at h
  cases hm : o.metadata with
  | error f => simp [hm, bind, Except.bind] at h
  | ok m =>
      simp only [hm, bind, Except.bind] at h
      cases kind with
      | deleted =>
          cases hk : deletedKey? m c.index with
          | error f => simp [hk] at h
          | ok k =>
              cases k with
              | none =>
                  simp only [hk, pure, Except.pure, Except.ok.injEq, Prod.mk.injEq] at h
                  exact Or.inl (congrArg WatchCache.index h.1).symm
              | some k =>
                  simp only [hk, pure, Except.pure, Except.ok.injEq, Prod.mk.injEq] at h
                  exact Or.inr (Or.inr ⟨k, (congrArg WatchCache.index h.1).symm⟩)
      | added =>
          cases hk : ObjectKey.ofMeta m with
          | error f => simp [hk] at h
          | ok k =>
              simp only [hk, pure, Except.pure, Except.ok.injEq, Prod.mk.injEq] at h
              exact Or.inr (Or.inl ⟨k, (congrArg WatchCache.index h.1).symm⟩)
      | modified =>
          cases hk : ObjectKey.ofMeta m with
          | error f => simp [hk] at h
          | ok k =>
              simp only [hk, pure, Except.pure, Except.ok.injEq, Prod.mk.injEq] at h
              exact Or.inr (Or.inl ⟨k, (congrArg WatchCache.index h.1).symm⟩)

/-! ### The states of a cache -/

namespace CacheHost

open WatchCache (Lists)

variable {S : Type} {h : CacheHost S} {s s' : S}

/-- The states of a cache that is fed with objects whose namespaces and names are texts. -/
inductive Fed (h : CacheHost S) : S → Prop
  | start {s : S} (kind : String) : h.cache s = .empty kind → Fed h s
  | relist {s : S} (response : Except Fault ApiObject) : Fed h s →
      Lists ApiObject.HasTexts response → Fed h (h.relist response s).2
  | event {s : S} (kind : ChangeKind) (o : ApiObject) : Fed h s → o.HasTexts →
      Fed h (h.apply kind o s).2
  | resync {s : S} : Fed h s → Fed h (h.resync s)
  | elsewhere {s s' : S} : Fed h s → h.cache s' = h.cache s → Fed h s'

theorem Fed.textual (hq : h.Quiet) (hs : h.Fed s) :
    (h.cache s).index.Textual ApiObject.HasTexts ∧ (h.cache s).index.Occupied := by
  have located : WatchCache.Located ApiObject.HasTexts := fun _ ho => ho
  induction hs with
  | start kind hc =>
      rw [hc]
      exact ⟨Index.empty_textual, Index.empty_occupied⟩
  | @relist s response _ hl ih =>
      cases hr : WatchCache.listed response with
      | error f =>
          rw [relist_unlisted hr]
          exact ih
      | ok es =>
          rw [hq.relist hr]
          exact ⟨WatchCache.listed_textual located hl hr, Index.ofList_occupied es⟩
  | @event s kind o _ ho ih =>
      obtain ⟨ns, name, hat⟩ := ho
      obtain ⟨i, hi, htext, _⟩ := WatchCache.apply_located kind ⟨ns, name, hat⟩ hat ih.1
      rw [hq.apply hi]
      refine ⟨htext, ?_⟩
      rcases WatchCache.apply_index hi with e | ⟨k, e⟩ | ⟨k, e⟩
      · exact e ▸ ih.2
      · exact e ▸ Index.store_occupied ih.2 k o
      · exact e ▸ Index.remove_occupied ih.2 k
  | resync _ ih =>
      rw [hq.resync]
      exact ih
  | elsewhere _ hc ih =>
      rw [hc]
      exact ih

end CacheHost

/-! ### The three reads -/

/-- The objects of `ns` are those of all objects that are in `ns`, in the same order. -/
theorem Index.Textual.filter_isIn {P : ApiObject → Prop} {i : Index} (h : i.Textual P)
    {objects there : List ApiObject} (hall : objects.Pairwise (·.texts < ·.texts))
    (hthere : there.Pairwise (·.texts < ·.texts)) {ns : String}
    (hobjects : ∀ o, o ∈ objects ↔ ∃ k, i.get? k = some o)
    (hmem : ∀ o, o ∈ there ↔ ∃ name, i.get? ⟨.text ns, .text name⟩ = some o) :
    there = objects.filter (·.isIn ns) := by
  refine eq_of_strictly_sorted ApiObject.texts hthere (hall.filter _) fun o => ?_
  rw [List.mem_filter, hobjects, hmem]
  constructor
  · rintro ⟨name, ho⟩
    refine ⟨⟨_, ho⟩, ?_⟩
    rw [(h.isAt_of_get? ho).1.isIn]
    exact decide_eq_true rfl
  · rintro ⟨⟨k, ho⟩, hin⟩
    obtain ⟨_, ns', name, rfl, hat⟩ := h.get?_placed ho
    rw [hat.isIn, decide_eq_true_eq] at hin
    rw [← hin]
    exact ⟨name, ho⟩

/-- The reads of a cache are about these objects. -/
structure WatchCache.Reads (c : WatchCache) (objects : List ApiObject) : Prop where
  list : c.list = .ok objects
  sorted : objects.Pairwise (·.texts < ·.texts)
  listIn : ∀ ns, c.listIn (.str ns) = .ok (objects.filter (·.isIn ns))
  first? : ∀ ns, c.first? (.str ns) = .ok (objects.filter (·.isIn ns)).head?

theorem WatchCache.reads_of_synced {P : ApiObject → Prop} {c : WatchCache} (h : c.index.Textual P)
    (hs : c.synced = true) :
    ∃ objects, c.Reads objects ∧ ∀ o, o ∈ objects ↔ ∃ k, c.index.get? k = some o := by
  obtain ⟨objects, hread, sorted, hmem⟩ := h.all_sorted
  have there : ∀ ns, c.index.inNamespace (.text ns) = .ok (objects.filter (·.isIn ns)) ∧
      c.index.first? (.text ns) = .ok (objects.filter (·.isIn ns)).head? := by
    intro ns
    obtain ⟨there, hin, hfirst, sorted', hmem'⟩ := h.inNamespace_sorted ns
    rw [← h.filter_isIn sorted sorted' hmem hmem']
    exact ⟨hin, hfirst⟩
  refine ⟨objects, ⟨?_, sorted, fun ns => ?_, fun ns => ?_⟩, hmem⟩
  · simp [WatchCache.list, hs, hread]
  · simp [WatchCache.listIn, hs, Key.ofJson, bind, Except.bind, (there ns).1]
  · simp [WatchCache.first?, hs, Key.ofJson, bind, Except.bind, (there ns).2]

/-! ### Policies -/

/-- `governingPolicy?` is the head of `policiesOf`. -/
theorem governingPolicy?_eq_head? {σ τ : Type} {c : WatchCache} {objects : List ApiObject}
    {ns : String} (hlist : c.listIn (.str ns) = .ok objects)
    (hfirst : c.first? (.str ns) = .ok objects.head?)
    (h : ∀ o ∈ objects, ∃ p, o.policy? = .ok p) (s s' : Site σ τ) :
    ∃ ps, (policiesOf c (.str ns) s).1 = .ok ps ∧
      (governingPolicy? c (.str ns) s').1 = .ok ps.head? := by
  obtain ⟨ps, t, read, _, same⟩ := readAllWithWarnings_ok h s
  refine ⟨ps, ?_, ?_⟩
  · unfold policiesOf
    rw [Act.bind_apply, Act.lift_apply, hlist]
    exact congrArg Prod.fst read
  · unfold governingPolicy?
    rw [Act.bind_apply, Act.lift_apply, hfirst]
    cases objects with
    | nil =>
        rw [List.map_eq_nil_iff.mp same]
        rfl
    | cons o r =>
        cases ps with
        | nil => exact absurd same (by simp)
        | cons p rest =>
            have hp : o.policy? = .ok p := (List.cons.inj same).1.symm
            obtain ⟨t', read, _⟩ := readWithWarnings_ok hp s'
            change ((readWithWarnings o >>= fun p => pure (some p)) s').1 = _
            rw [Act.bind_of_ok read]
            rfl

namespace CacheHost

variable {S : Type} {h : CacheHost S} {s : S}

/-- **The reads of a cache agree.** Both forms of the index hold the same object under every key,
and no namespace is empty. The objects that are read are those of the index, or none before the
first list response; they are in strict order of namespace and name, and the reads of a namespace
are those of them that are in it, and the first one of these. So the policy that governs a namespace
is the first of its policies, if these can be read. -/
theorem fed_reads (hq : h.Quiet) (hs : h.Fed s) :
    let c := h.cache s
    c.index.Coherent ∧ c.index.Occupied ∧ ∃ objects, c.Reads objects ∧
      (∀ o, o ∈ objects ↔ c.synced = true ∧ ∃ k, c.index.get? k = some o) ∧
      ∀ ns, (∀ o ∈ objects.filter (·.isIn ns), ∃ p, o.policy? = .ok p) →
        ∀ {σ τ : Type} (site site' : Site σ τ), ∃ ps, (policiesOf c (.str ns) site).1 = .ok ps ∧
          (governingPolicy? c (.str ns) site').1 = .ok ps.head? := by
  intro c
  obtain ⟨htext, hoccupied⟩ := hs.textual hq
  refine ⟨htext.coherent, hoccupied, ?_⟩
  cases hsynced : c.synced with
  | true =>
      obtain ⟨objects, reads, hmem⟩ := WatchCache.reads_of_synced htext hsynced
      refine ⟨objects, reads, fun o => by rw [hmem o, eq_self, true_and], ?_⟩
      intro ns hp σ τ site site'
      exact governingPolicy?_eq_head? (reads.listIn ns) (reads.first? ns) hp site site'
  | false =>
      have nothing := fun ns => WatchCache.reads_of_unsynced hsynced (.str ns)
      have reads : c.Reads [] :=
        ⟨(nothing "").1, List.Pairwise.nil, fun ns => (nothing ns).2.1, fun ns => (nothing ns).2.2⟩
      refine ⟨[], reads, by simp, ?_⟩
      intro ns hp σ τ site site'
      exact governingPolicy?_eq_head? (reads.listIn ns) (reads.first? ns) hp site site'

/-- A policy. -/
def namedPolicy (ns name : String) (maxPods : Int) : ApiObject :=
  .untyped (.obj [("metadata", .obj [("name", .str name), ("namespace", .str ns)]),
    ("spec", .obj [("maxPods", .int maxPods)])])

theorem namedPolicy_hasTexts (ns name : String) (maxPods : Int) (hns : ns ≠ "")
    (hname : name ≠ "") : (namedPolicy ns name maxPods).HasTexts := by
  refine ⟨ns, name, .str "", ?_⟩
  simp [namedPolicy, ApiObject.metadata, ApiObject.identify, ApiObject.untypedMetadata,
    ApiObject.given, Json.orElse, Json.ofOption, Json.truthy, Dictionary.get?, hns, hname, bind,
    Except.bind, pure, Except.pure]

/-- A list response with one policy in each of two namespaces. -/
def policiesListed : Except Fault ApiObject :=
  .ok (.list [namedPolicy "team-b" "only" 1, namedPolicy "team-a" "quota" 2] (some "7"))

theorem policiesListed_hasTexts : WatchCache.Lists ApiObject.HasTexts policiesListed := by
  rintro _ _ ⟨⟩ ⟨⟩ o ho
  rcases List.mem_cons.mp ho with rfl | ho
  · exact namedPolicy_hasTexts _ _ _ (by decide) (by decide)
  · rw [List.mem_singleton.mp ho]
    exact namedPolicy_hasTexts _ _ _ (by decide) (by decide)

/-- After the list response the policy of one namespace is deleted, and the other namespace gets a
policy with an earlier name. That one governs, and it is the first of two. -/
theorem fed_reads_earlier_name :
    let h := (scripted (⟨0, .int 0, 0, 0⟩ : WatchSettings Float)).toCacheHost
    let start := ScriptState.start (.empty "policies") [("noisy", true)] 0 false
    let s := (h.apply .added (namedPolicy "team-a" "base" 3)
      (h.apply .deleted (namedPolicy "team-b" "only" 1) (h.relist policiesListed start).2).2).2
    let c := h.cache s
    h.Quiet ∧ h.Fed s ∧ c.index.Coherent ∧
      c.list = .ok [namedPolicy "team-a" "base" 3, namedPolicy "team-a" "quota" 2] ∧
      c.first? (.str "team-a") = .ok (some (namedPolicy "team-a" "base" 3)) ∧
      ∀ site site' : Site InMemory Float, ∃ ps, (policiesOf c (.str "team-a") site).1 = .ok ps ∧
        (governingPolicy? c (.str "team-a") site').1 = .ok ps.head? := by
  intro h start s c
  have quiet : h.Quiet := scripted_quiet _
  have fed : h.Fed s := by
    refine .event _ _ (.event _ _ (.relist _ (.start "policies" rfl) policiesListed_hasTexts) ?_) ?_
    · exact namedPolicy_hasTexts _ _ _ (by decide) (by decide)
    · exact namedPolicy_hasTexts _ _ _ (by decide) (by decide)
  have list : c.list = .ok [namedPolicy "team-a" "base" 3, namedPolicy "team-a" "quota" 2] := rfl
  obtain ⟨coherent, _, objects, reads, _, governs⟩ := fed_reads quiet fed
  obtain rfl := Except.ok.inj (reads.list.symm.trans list)
  refine ⟨quiet, fed, coherent, list, reads.first? "team-a", governs "team-a" ?_⟩
  intro o ho
  rcases List.mem_cons.mp (List.mem_of_mem_filter ho) with rfl | ho
  · exact ⟨_, rfl⟩
  · rw [List.mem_singleton.mp ho]
    exact ⟨_, rfl⟩

/-- An event stores a policy before the first list response: the index holds it, and nothing is
read. -/
theorem fed_unlisted :
    let h := (scripted (⟨0, .int 0, 0, 0⟩ : WatchSettings Float)).toCacheHost
    let start := ScriptState.start (.empty "policies") [] 0 false
    let s := (h.apply .added (namedPolicy "team-a" "quota" 2) start).2
    h.Quiet ∧ h.Fed s ∧ (h.cache s).index.get? ⟨.text "team-a", .text "quota"⟩ =
      some (namedPolicy "team-a" "quota" 2) ∧ (h.cache s).list = .ok [] := by
  intro h start s
  refine ⟨scripted_quiet _, .event _ _ (.start "policies" rfl) ?_, rfl, rfl⟩
  exact namedPolicy_hasTexts _ _ _ (by decide) (by decide)

end CacheHost

end QuotaWarden
