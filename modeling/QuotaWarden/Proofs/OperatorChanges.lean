import QuotaWarden.Operator.Run
import QuotaWarden.Proofs.CacheContents
import QuotaWarden.Proofs.PendingKeys

/-! # What changes do to the operator

The operator keeps three caches, and each queues the namespaces that its changes are about. Telling
of changes only adds to the queue and to the journal (`Operator.deliverAll_notes`), so each cache is
quiet (`Operator.host_quiet`), and an operation on one of them leaves the others as they are.

Every change that is told marks the namespace that its object is about, whichever other changes
could not be noted (`Operator.deliverAll_marked`). -/

namespace QuotaWarden.Operator

variable {σ τ : Type} {o o' o'' : Operator σ τ}

/-- Where the operator keeps a cache, and who is told of its changes. -/
def host (k : WatchedKind) : CacheHost (Operator σ τ) :=
  ⟨cache k, setCache k, fun _ => queueHandlers k, log⟩

/-! ### Notes -/

/-- Keys were queued and lines noted, and nothing else happened. -/
def Notes (o o' : Operator σ τ) : Prop :=
  ∃ (ks : List Key) (t : Site σ τ),
    o' = { o with queue := ks.foldl (fun q k => q.add k) o.queue, site := t }

theorem Notes.refl (o : Operator σ τ) : Notes o o := ⟨[], o.site, rfl⟩

theorem Notes.trans (h : Notes o o') (h' : Notes o' o'') : Notes o o'' := by
  obtain ⟨ks, t, rfl⟩ := h
  obtain ⟨ks', t', rfl⟩ := h'
  exact ⟨ks ++ ks', t', by rw [List.foldl_append]⟩

theorem Notes.cache (h : Notes o o') (k : WatchedKind) : o'.cache k = o.cache k := by
  obtain ⟨ks, t, rfl⟩ := h
  cases k <;> rfl

theorem Notes.shuttingDown (h : Notes o o') : o'.queue.shuttingDown = o.queue.shuttingDown := by
  obtain ⟨ks, t, rfl⟩ := h
  exact WorkQueue.foldl_add_shuttingDown ks o.queue

theorem Notes.marked (h : Notes o o') {j : Key} (hj : o.queue.dirty.contains j = true) :
    o'.queue.dirty.contains j = true := by
  obtain ⟨ks, t, rfl⟩ := h
  exact WorkQueue.foldl_add_keeps_marked ks hj

theorem noteChange_notes (k : WatchedKind) (c : Change) (o : Operator σ τ) :
    Notes o (noteChange k c o).2 := by
  unfold noteChange
  split
  · exact Notes.refl o
  · split
    · unfold enqueueValue
      split
      · exact Notes.refl o
      · split
        · exact Notes.refl o
        · next key _ => exact ⟨[key], o.site, rfl⟩
    · exact Notes.refl o

theorem deliverAll_notes (k : WatchedKind) (cs : List Change) (o : Operator σ τ) :
    Notes o ((host k).deliverAll cs o) := by
  refine CacheHost.deliverAll_rel (R := Notes) Notes.refl Notes.trans (fun _ o => ⟨[], _, rfl⟩)
    ?_ cs o
  intro _ handler hh c o'
  rw [List.mem_singleton.mp hh]
  exact noteChange_notes k c o'

/-! ### Marks -/

theorem noteChange_apply (h : o.queue.shuttingDown = false) {k : WatchedKind} {c : Change}
    {m : ObjectMeta} (hm : c.object.metadata = .ok m) {ns : String} (hs : subject k m = .str ns)
    (hns : ns ≠ "") : noteChange k c o = (.ok (), o.enqueue (.text ns)) := by
  simp [noteChange, hm, hs, Json.truthy, hns, enqueueValue, h, Key.ofJson]

theorem noteChange_marked (h : o.queue.shuttingDown = false) {k : WatchedKind} {c : Change}
    {m : ObjectMeta} (hm : c.object.metadata = .ok m) {ns : String} (hs : subject k m = .str ns)
    (hns : ns ≠ "") : (noteChange k c o).2.queue.dirty.contains (.text ns) = true := by
  rw [noteChange_apply h hm hs hns]
  exact WorkQueue.add_marked h _

theorem deliver_queue (k : WatchedKind) (o : Operator σ τ) (c : Change) :
    ((host k).deliver o c).queue = (noteChange k c o).2.queue := by
  unfold CacheHost.deliver host queueHandlers
  simp only [List.foldl_cons, List.foldl_nil, CacheHost.tell]
  obtain ⟨r, o'⟩ := noteChange k c o
  cases r <;> rfl

/-- A change in `cs` leaves its namespace marked, whichever others could not be noted. -/
theorem deliverAll_marked (h : o.queue.shuttingDown = false) {k : WatchedKind} {cs : List Change}
    {c : Change} (hc : c ∈ cs) {m : ObjectMeta} (hm : c.object.metadata = .ok m) {ns : String}
    (hs : subject k m = .str ns) (hns : ns ≠ "") :
    ((host k).deliverAll cs o).queue.dirty.contains (.text ns) = true := by
  induction cs generalizing o with
  | nil => simp at hc
  | cons d r ih =>
      rcases List.mem_cons.mp hc with rfl | hc
      · refine (deliverAll_notes k r ((host k).deliver o c)).marked ?_
        rw [deliver_queue]
        exact noteChange_marked h hm hs hns
      · have told : Notes o ((host k).deliver o d) := deliverAll_notes k [d] o
        exact ih (told.shuttingDown.trans h) hc

/-! ### The queue -/

/-- From one state to the next the queue was only added to. -/
def Adds (o o' : Operator σ τ) : Prop :=
  ∃ ks : List Key, o'.queue = ks.foldl (fun q k => q.add k) o.queue

theorem Adds.of_eq (h : o'.queue = o.queue) : Adds o o' := ⟨[], h⟩

theorem Adds.trans (h : Adds o o') (h' : Adds o' o'') : Adds o o'' := by
  obtain ⟨ks, e⟩ := h
  obtain ⟨ks', e'⟩ := h'
  exact ⟨ks ++ ks', by rw [e', e, List.foldl_append]⟩

theorem Notes.adds (h : Notes o o') : Adds o o' := by
  obtain ⟨ks, t, rfl⟩ := h
  exact ⟨ks, rfl⟩

theorem setCache_queue (k : WatchedKind) (c : WatchCache) (o : Operator σ τ) :
    (setCache k c o).queue = o.queue := by
  cases k <;> rfl

theorem markSynced_queue (k : WatchedKind) (n : Nat) (o : Operator σ τ) :
    ((host k).markSynced n o).queue = o.queue := by
  unfold CacheHost.markSynced
  split
  · rfl
  · exact setCache_queue k _ o

theorem deliverAll_adds (k : WatchedKind) (cs : List Change) (o : Operator σ τ) :
    Adds o ((host k).deliverAll cs o) := (deliverAll_notes k cs o).adds

theorem relist_adds (k : WatchedKind) (response : Except Fault ApiObject) (o : Operator σ τ) :
    Adds o ((host k).relist response o).2 := by
  unfold CacheHost.relist
  split
  · exact Adds.of_eq rfl
  · split
    · exact Adds.of_eq rfl
    · next c cs _ =>
        have told := (Adds.of_eq (setCache_queue k c o)).trans (deliverAll_adds k cs _)
        exact told.trans (Adds.of_eq (markSynced_queue k _ _))

theorem apply_adds (k : WatchedKind) (kind : ChangeKind) (x : ApiObject) (o : Operator σ τ) :
    Adds o ((host k).apply kind x o).2 := by
  unfold CacheHost.apply
  split
  · exact Adds.of_eq rfl
  · next c change _ =>
      exact (Adds.of_eq (setCache_queue k c o)).trans (deliverAll_adds k [change] _)

/-! ### The caches -/

@[simp] theorem cache_setCache (k : WatchedKind) (c : WatchCache) (o : Operator σ τ) :
    cache k (setCache k c o) = c := by
  cases k <;> rfl

theorem cache_setCache_of_ne {j k : WatchedKind} (h : j ≠ k) (c : WatchCache) (o : Operator σ τ) :
    cache j (setCache k c o) = cache j o := by
  cases j <;> cases k <;> first | exact absurd rfl h | rfl

theorem cache_log (k : WatchedKind) (l : LogLine) (o : Operator σ τ) :
    cache k (log l o) = cache k o := by
  cases k <;> rfl

/-- The log and the handlers of an operator leave its caches as they are. -/
theorem host_quiet (k : WatchedKind) : (host k : CacheHost (Operator σ τ)).Quiet := by
  refine ⟨cache_setCache k, cache_log k, ?_⟩
  intro _ handler hh c o
  rw [List.mem_singleton.mp hh]
  exact (noteChange_notes k c o).cache k

theorem relist_other {j k : WatchedKind} (h : j ≠ k) (response : Except Fault ApiObject)
    (o : Operator σ τ) : cache j ((host k).relist response o).2 = cache j o := by
  cases hr : WatchCache.listed response with
  | error f => rw [CacheHost.relist_unlisted hr]
  | ok es =>
      rw [CacheHost.relist_listed hr]
      unfold CacheHost.markSynced
      split
      · exact ((deliverAll_notes k _ _).cache j).trans (cache_setCache_of_ne h _ _)
      · refine (cache_log j _ _).trans ((cache_setCache_of_ne h _ _).trans ?_)
        exact ((deliverAll_notes k _ _).cache j).trans (cache_setCache_of_ne h _ _)

theorem apply_other {j k : WatchedKind} (h : j ≠ k) (kind : ChangeKind) (x : ApiObject)
    (o : Operator σ τ) : cache j ((host k).apply kind x o).2 = cache j o := by
  unfold CacheHost.apply
  split
  · rfl
  · next c change _ =>
      exact ((deliverAll_notes k [change] _).cache j).trans (cache_setCache_of_ne h _ _)

end QuotaWarden.Operator
