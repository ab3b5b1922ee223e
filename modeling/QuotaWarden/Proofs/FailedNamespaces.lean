import QuotaWarden.Proofs.PolicySync
import QuotaWarden.Proofs.RetriedKeys

/-! # A failed namespace is never dropped

Any number of workers take namespaces from the queue of the operator, reconcile them, tell the queue
how it went and release them, while caches change, rounds over all namespaces pass and delayed
namespaces are delivered. `Works` are the states that this leads to.

* Each step calls the queue in one of the ways that keep it `WorkQueue.Staffed` (`Works.staffed`).
* `processNext` is taking a namespace, calling `sync`, and releasing it (`processNext_eq`).
* `works_never_drops` is the main result. -/

namespace QuotaWarden.Operator

open TimeScale WorkQueue

variable {σ τ : Type} {o o' o'' : Operator σ τ}

/-! ### Moves from outside add to the queue -/

/-- The key of a namespace in a listing. -/
def namespaceKey (name : Option String) : Key := (name.map Key.text).getD .null

theorem enqueueAll_queue (names : List (Option String)) (o : Operator σ τ) :
    (enqueueAll names o).queue = (names.map namespaceKey).foldl (fun q k => q.add k) o.queue := by
  unfold enqueueAll
  induction names generalizing o with
  | nil => rfl
  | cons n r ih => exact ih (o.enqueue (namespaceKey n))

variable [ClusterApi σ]

theorem resyncAll_adds (o : Operator σ τ) : Adds o (resyncAll o).2 := by
  rcases resyncAll_cases o with ⟨_, t, _, e⟩ | ⟨_, t, _, _, e⟩ | ⟨l, t, _, e⟩
  · rw [e]
    exact Adds.of_eq rfl
  · rw [e]
    exact Adds.of_eq rfl
  · rw [e]
    exact ⟨_, enqueueAll_queue l.names { o with site := t }⟩

variable [TimeScale τ]

/-- A move that is not made by a worker. -/
def Move.IsOutside : Move σ τ → Prop
  | take => False
  | work _ => False
  | process => False
  | _ => True

/-- A move that `IsOutside` adds to the queue, or is `deliver`. -/
theorem Move.run_queue (options : EnforcementOptions) {m : Move σ τ} (hm : m.IsOutside)
    (o : Operator σ τ) :
    Adds o (m.run options o) ∨ ∃ now, (m.run options o).queue = o.queue.deliver now := by
  cases m with
  | relist k response => exact Or.inl (relist_adds k response o)
  | event k kind x => exact Or.inl (apply_adds k kind x o)
  | resyncCache k => exact Or.inl (deliverAll_adds k _ o)
  | resyncAll => exact Or.inl (resyncAll_adds o)
  | deliver now => exact Or.inr ⟨now, rfl⟩
  | elsewhere site => exact Or.inl (Adds.of_eq rfl)
  | take => exact hm.elim
  | work k => exact hm.elim
  | process => exact hm.elim

/-! ### Workers -/

/-- An operator with what its workers are at, the result of the last `sync` of each worker, and the
outcomes of their tries, the latest first. -/
structure Crew (σ τ : Type) where
  operator : Operator σ τ
  worker : Nat → Phase Key τ
  result : Nat → Option (Except Fault (Option Verdict))
  outcomes : List (Key × Bool)

/-- The states that the operator and its workers reach. A worker takes a namespace, reconciles it by
`sync`, tells the queue whether that failed, and releases the namespace. Meanwhile there are moves
from outside, the queue may shut down, and what is not the queue may change in any way. -/
inductive Works (options : EnforcementOptions) (start : Operator σ τ) : Crew σ τ → Prop
  | start : Works options start ⟨start, fun _ => .idle, fun _ => none, []⟩
  | move {c : Crew σ τ} {m : Move σ τ} : Works options start c → m.IsOutside →
      Works options start { c with operator := m.run options c.operator }
  | shutDown {c : Crew σ τ} : Works options start c → Works options start
      { c with operator := { c.operator with queue := c.operator.queue.shutDown } }
  | beside {c : Crew σ τ} {o : Operator σ τ} : Works options start c →
      o.queue = c.operator.queue → Works options start { c with operator := o }
  | take {c : Crew σ τ} {i : Nat} {k : Key} {q : WorkQueue Key τ} : Works options start c →
      c.worker i = .idle → c.operator.queue.take = (.key k, q) → Works options start
        ⟨{ c.operator with queue := q }, Function.update c.worker i (.trying k),
          Function.update c.result i none, c.outcomes⟩
  | sync {c : Crew σ τ} {i : Nat} {k : Key} : Works options start c →
      c.worker i = .trying k → c.result i = none → Works options start
        { c with
          operator := (sync options k.toJson c.operator).2
          result := Function.update c.result i (some (sync options k.toJson c.operator).1) }
  | succeed {c : Crew σ τ} {i : Nat} {k : Key} {v : Option Verdict} : Works options start c →
      c.worker i = .trying k → c.result i = some (.ok v) → Works options start
        { c with
          operator := { c.operator with queue := c.operator.queue.forget k }
          worker := Function.update c.worker i (.succeeded k)
          outcomes := (k, true) :: c.outcomes }
  | fail {c : Crew σ τ} {i : Nat} {k : Key} {f : Fault} : Works options start c →
      c.worker i = .trying k → c.result i = some (.error f) → Works options start
        { c with
          operator := (c.operator.log (failureLine k f)).retryLater k
          worker := Function.update c.worker i (.failed k c.operator.site.now)
          outcomes := (k, false) :: c.outcomes }
  | release {c : Crew σ τ} {i : Nat} {k : Key} : Works options start c →
      ((∃ asked, c.worker i = .failed k asked) ∨ c.worker i = .succeeded k) →
      Works options start
        { c with
          operator := { c.operator with queue := c.operator.queue.release k }
          worker := Function.update c.worker i .idle }

variable {options : EnforcementOptions} {start : Operator σ τ} {c : Crew σ τ} {name : String}
  {base cap : τ} {i : Nat} {k : Key}

theorem sync_queue (options : EnforcementOptions) (k : Key) (o : Operator σ τ) :
    (sync options k.toJson o).2.queue = o.queue := by
  obtain ⟨j, hj, _⟩ := ofJson_toJson k
  rcases sync_cases options hj o with ⟨f, t, e⟩ | ⟨v, t, d, _, e, _⟩ |
    ⟨x, r, p, l, res, t, _, _, _, e⟩
  · rw [e]
  · rw [e]
  · rw [e]

theorem Works.staffed (hstart : start.queue = .empty name base cap)
    (h : Works options start c) : Staffed base cap c.worker c.outcomes c.operator.queue := by
  induction h with
  | start =>
      rw [hstart]
      exact empty_staffed name base cap
  | @move c m _ hm ih =>
      rcases Move.run_queue options hm c.operator with ⟨ks, e⟩ | ⟨now, e⟩
      · rw [e]
        exact ih.adds ks
      · rw [e]
        exact ih.deliver now
  | shutDown _ ih => exact ih.shutDown
  | beside _ e ih =>
      rw [e]
      exact ih
  | take _ hi ht ih => exact ih.take hi ht
  | @sync c i k _ _ _ ih =>
      rw [sync_queue options k c.operator]
      exact ih
  | succeed _ hi _ ih => exact ih.succeed hi
  | fail _ hi _ ih => exact ih.fail hi _
  | release _ hi ih => exact ih.release hi

/-! ### Processing a namespace -/

/-- The crew after worker `i` has reconciled `k` and told the queue whether that failed. -/
def Crew.tried (options : EnforcementOptions) (i : Nat) (k : Key) (c : Crew σ τ) : Crew σ τ :=
  let tried := sync options k.toJson c.operator
  { operator :=
      match tried.1 with
      | .ok _ => { tried.2 with queue := tried.2.queue.forget k }
      | .error f => (tried.2.log (failureLine k f)).retryLater k
    worker := Function.update c.worker i
      (if tried.1.isOk then .succeeded k else .failed k tried.2.site.now)
    result := Function.update c.result i (some tried.1)
    outcomes := (k, tried.1.isOk) :: c.outcomes }

theorem Works.tried (h : Works options start c) (hi : c.worker i = .trying k)
    (hr : c.result i = none) : Works options start (c.tried options i k) := by
  have synced := h.sync hi hr
  unfold Crew.tried
  rcases hs : Operator.sync options k.toJson c.operator with ⟨result, o⟩
  rw [hs] at synced
  cases result with
  | ok v => exact synced.succeed hi (Function.update_self ..)
  | error f => exact synced.fail hi (Function.update_self ..)

theorem tried_worker (options : EnforcementOptions) (i : Nat) (k : Key) (c : Crew σ τ) :
    (∃ asked, (c.tried options i k).worker i = .failed k asked) ∨
      (c.tried options i k).worker i = .succeeded k := by
  have worker : (c.tried options i k).worker i = if (sync options k.toJson c.operator).1.isOk
      then .succeeded k else .failed k (sync options k.toJson c.operator).2.site.now :=
    Function.update_self ..
  rw [worker]
  split
  · exact Or.inr rfl
  · exact Or.inl ⟨_, rfl⟩

/-- `processKey` is `Crew.tried`, and then `release`. -/
theorem processKey_eq (options : EnforcementOptions) (i : Nat) (k : Key) (c : Crew σ τ) :
    processKey options k c.operator =
      { (c.tried options i k).operator with
        queue := (c.tried options i k).operator.queue.release k } := by
  unfold processKey Crew.tried
  rcases sync options k.toJson c.operator with ⟨result, o⟩
  cases result <;> rfl

/-- `processNext` is `take`, and then `processKey`. -/
theorem processNext_eq {o' : Operator σ τ}
    (hp : processNext options c.operator = (.key k, o')) :
    ∃ q, c.operator.queue.take = (.key k, q) ∧
      o' = processKey options k { c.operator with queue := q } := by
  unfold processNext at hp
  rcases ht : c.operator.queue.take with ⟨taken, q⟩
  rw [ht] at hp
  cases taken with
  | shutDown => cases hp
  | nothing => cases hp
  | key l =>
      cases hp
      exact ⟨q, rfl, rfl⟩

/-- `release` after the `n`-th failure in a row leaves the namespace marked or due in time. -/
theorem Works.retried (hstart : start.queue = .empty name base cap) (h : Works options start c)
    {value : τ → ℚ} (hv : Exact value) (hs : c.operator.queue.shuttingDown = false) {asked : τ}
    (hi : c.worker i = .failed k asked) :
    let n := failuresSince k c.outcomes
    0 < n ∧ (c.operator.queue.release k).RetriedBy value k
      (value asked + min (value cap) (value base * 2 ^ min (n - 1) 64)) := by
  intro n
  have hc := h.staffed hstart
  have spares := release_spares k k c.operator.queue
  have due := ((hc.due hs i k asked hi).spared spares).exact hv
  rw [spares.base, spares.cap, spares.count, hc.base, hc.cap, hc.counted] at due
  have failing := hc.failing i k asked hi
  rw [hc.counted] at failing
  exact ⟨failing, due⟩

/-! ### No failed namespace is dropped -/

/-- **A failed namespace is never dropped.** In every state that an operator with workers reaches:

* until the shutdown, every namespace with failures is pending;
* `failureCount` counts the calls of `sync` that failed since the last one that succeeded;
* a namespace is in processing exactly while a worker has it, so no more once that worker releases
  it;
* when a worker releases a namespace after the `n`-th failure in a row, then until the shutdown the
  namespace is marked, or has a time no later than the one at which the worker asked for another try
  and `min cap (base * 2 ^ min (n - 1) 64)`;
* `processNext` takes a namespace, calls `sync` once, notes whether that failed, and leaves the
  namespace out of processing, after a failure with such a time. -/
theorem works_never_drops (hstart : start.queue = .empty name base cap)
    (h : Works options start c) :
    let q := c.operator.queue
    (q.shuttingDown = false → ∀ k, 0 < q.failureCount k → q.Pending k) ∧
      (∀ k, q.failureCount k = failuresSince k c.outcomes) ∧
      (∀ k, q.processing.contains k = true ↔ ∃ i j, (c.worker i).key? = some j ∧ (j == k) = true) ∧
      (∀ i k, (c.worker i).key? = some k → (q.release k).processing.contains k = false) ∧
      (∀ value : τ → ℚ, Exact value → q.shuttingDown = false →
        ∀ i k asked, c.worker i = .failed k asked →
          let n := failuresSince k c.outcomes
          0 < n ∧ (q.release k).RetriedBy value k
            (value asked + min (value cap) (value base * 2 ^ min (n - 1) 64))) ∧
      ∀ i k o', c.worker i = .idle → processNext options c.operator = (.key k, o') →
        let tried := sync options k.toJson { c.operator with queue := q.take.2 }
        let outcomes := (k, tried.1.isOk) :: c.outcomes
        o'.queue.processing.contains k = false ∧
          Works options start
            ⟨o', c.worker, Function.update c.result i (some tried.1), outcomes⟩ ∧
          (tried.1.isOk = false → o'.queue.shuttingDown = false →
            ∀ value : τ → ℚ, Exact value →
              let n := failuresSince k outcomes
              0 < n ∧ o'.queue.RetriedBy value k
                (value tried.2.site.now + min (value cap) (value base * 2 ^ min (n - 1) 64))) := by
  intro q
  have hc := h.staffed hstart
  have released (q : WorkQueue Key τ) (k : Key) :
      (q.release k).processing.contains k = false := by
    rw [release_processing, contains_removeKey, BEq.refl]
    rfl
  refine ⟨hc.pending, hc.counted, hc.inHand.held, fun _ k _ => released q k,
    fun value hv hs i k asked hi => h.retried hstart hv hs hi, fun i k o' hi hp => ?_⟩
  intro tried outcomes
  obtain ⟨r, ht, rfl⟩ := processNext_eq hp
  have taken : q.take.2 = r := congrArg Prod.snd ht
  let c' : Crew σ τ := ⟨{ c.operator with queue := r }, Function.update c.worker i (.trying k),
    Function.update c.result i none, c.outcomes⟩
  have works : Works options start (c'.tried options i k) :=
    (h.take hi ht).tried (Function.update_self ..) (Function.update_self ..)
  have processed : processKey options k c'.operator = _ := processKey_eq options i k c'
  have same : tried = sync options k.toJson c'.operator := by
    unfold tried
    rw [taken]
  rw [processed]
  refine ⟨released _ k, ?_, fun failed hs value hv => ?_⟩
  · have done := works.release (tried_worker options i k c')
    unfold outcomes
    rw [same]
    simpa [Crew.tried, c', Function.update_idem, ← hi] using done
  · have phase : (c'.tried options i k).worker i = .failed k tried.2.site.now := by
      rw [same] at failed ⊢
      simp [Crew.tried, failed]
    rw [release_shuttingDown] at hs
    have retried := works.retried hstart hv hs phase
    rwa [show (c'.tried options i k).outcomes = outcomes by unfold outcomes; rw [same]; rfl]
      at retried

/-- An operator whose cluster refuses to list pods twice. -/
def refusedTwice : Operator InMemory ℚ :=
  let refusal : ScriptedOutcome := ⟨some (.refused ⟨.int 500, .null⟩), false⟩
  { Operator.start (InMemory.empty.setScript .listPods [refusal, refusal]) with
    queue := .empty "" 1 4 }

/-- The list of policies brings one for a namespace, and `processNext` fails twice: the second
failure asks for a try after `min 4 (1 * 2)`. -/
theorem works_never_drops_refused :
    let ns : Key := .text "team-a"
    let policy : Json := .obj [("metadata", .obj [("name", .str "quota"),
      ("namespace", .str "team-a")]), ("spec", .obj [("maxPods", .int 1)])]
    let listed := Move.run .standard refusedTwice
      (.relist .policies (.ok (.list [.untyped policy] none)))
    let first := processNext .standard listed
    let delivered := Move.run .standard first.2 (.deliver 1)
    let second := processNext .standard delivered
    let outcomes := [(ns, false), (ns, false)]
    refusedTwice.queue = .empty "" 1 4 ∧ first.1 = .key ns ∧ second.1 = .key ns ∧
      (∃ result, Works .standard refusedTwice ⟨second.2, fun _ => .idle, result, outcomes⟩) ∧
      second.2.queue.failureCount ns = 2 ∧ second.2.queue.Pending ns ∧
      second.2.queue.processing = [] ∧
      ∃ ready, Dictionary.get? ns second.2.queue.readyAt = some ready ∧ ready ≤ 2 := by
  intro ns policy listed first delivered second outcomes
  have begins : refusedTwice.queue = .empty "" 1 4 := rfl
  have firstKey : first.1 = .key ns := by decide +kernel
  have secondKey : second.1 = .key ns := by decide +kernel
  have firstTaken : processNext .standard listed = (.key ns, first.2) := Prod.ext firstKey rfl
  have secondTaken : processNext .standard delivered = (.key ns, second.2) :=
    Prod.ext secondKey rfl
  have firstFails : (sync .standard ns.toJson
      { listed with queue := listed.queue.take.2 }).1.isOk = false := by decide +kernel
  have secondFails : (sync .standard ns.toJson
      { delivered with queue := delivered.queue.take.2 }).1.isOk = false := by decide +kernel
  have now : (sync .standard ns.toJson
      { delivered with queue := delivered.queue.take.2 }).2.site.now = 0 := by decide +kernel
  have serving : second.2.queue.shuttingDown = false := by decide +kernel
  have unmarked : second.2.queue.dirty.contains ns = false := by decide +kernel
  have released : second.2.queue.processing = [] := by decide +kernel
  have relisted : Works .standard refusedTwice ⟨listed, fun _ => .idle, fun _ => none, []⟩ :=
    .move (c := ⟨refusedTwice, fun _ => .idle, fun _ => none, []⟩)
      (m := .relist .policies (.ok (.list [.untyped policy] none))) .start trivial
  have deliver {result outcomes} (works : Works .standard refusedTwice
      ⟨first.2, fun _ => .idle, result, outcomes⟩) :
      Works .standard refusedTwice ⟨delivered, fun _ => .idle, result, outcomes⟩ :=
    .move (c := ⟨first.2, fun _ => .idle, result, outcomes⟩) (m := .deliver 1) works trivial
  clear_value second delivered first listed
  obtain ⟨_, _, _, _, _, processed⟩ := works_never_drops begins relisted
  obtain ⟨_, works, _⟩ := processed 0 ns first.2 rfl firstTaken
  obtain ⟨_, _, _, _, _, processed⟩ := works_never_drops begins (deliver works)
  obtain ⟨_, works, due⟩ := processed 0 ns second.2 rfl secondTaken
  rw [firstFails, secondFails] at works
  obtain ⟨pending, counted, _⟩ := works_never_drops begins works
  have failed : second.2.queue.failureCount ns = 2 := counted ns
  obtain ⟨_, marked | ⟨ready, hready, hle⟩⟩ := due secondFails serving id exactTime_clock.toExact
  · exact absurd marked (by simp [unmarked])
  · refine ⟨begins, firstKey, secondKey, ⟨_, works⟩, failed,
      pending serving ns (by rw [failed]; decide), released, ready, hready, ?_⟩
    rw [firstFails, secondFails, now] at hle
    exact hle.trans (by norm_num [failuresSince])

end QuotaWarden.Operator
