import QuotaWarden.Proofs.FailedNamespaces

/-! # The shutdown of the queue is final

After its shutdown the queue takes in and hands out nothing more, whatever it is called for: it is
`Closed`, so that of its keys only those in processing become fewer.

The threads that share a queue are workers, the loop that delivers delayed keys, and others that
call it in any way. At the shutdown a worker may have a key in hand, and the loop may have collected
keys that it has not added yet. `Step` is one step of one thread, a single call of the queue, and
`Steps` are any steps in any order. After the shutdown each step of a worker or of the loop takes
its `left` down by one, and none has to wait (`Step.left_eq`, `exists_step`): so they end, a worker
after what it has in hand.

The workers of the operator take such steps (`processNext_steps`), and so does the loop that
delivers (`deliver_steps`). `shutdown_is_final` is the main result. -/

namespace QuotaWarden

open TimeScale

namespace WorkQueue

variable {κ τ : Type} {q q' q'' : WorkQueue κ τ}

/-! ### Threads -/

/-- A thread that calls the queue. -/
inductive Thread where
  | worker (i : Nat)
  | delivery
  /-- Any other one. -/
  | other
deriving DecidableEq, Repr

/-- A queue and what the threads that share it are at. -/
structure Threads (κ τ : Type) where
  queue : WorkQueue κ τ
  /-- What a worker is at; nothing once its loop has ended. -/
  worker : Nat → Option (Phase κ τ)
  /-- The keys that the delivering loop has collected and not added yet; nothing once it has ended.
  -/
  delivery : Option (List κ)

/-- The calls of the queue that a worker makes after the shutdown until its loop has ended. -/
def Phase.left : Option (Phase κ τ) → Nat
  | none => 0
  | some .idle => 1
  | some (.failed _ _) => 2
  | some (.succeeded _) => 2
  | some (.trying _) => 3

/-- The steps that a worker or the delivering loop takes after the shutdown until it has ended. -/
def Threads.left (s : Threads κ τ) : Thread → Nat
  | .worker i => Phase.left (s.worker i)
  | .delivery => (s.delivery.map fun ks => ks.length + 1).getD 0
  | .other => 0

theorem left_worker_le (s : Threads κ τ) (i : Nat) : s.left (.worker i) ≤ 3 := by
  cases hi : s.worker i with
  | none => simp [Threads.left, Phase.left, hi]
  | some phase => cases phase <;> simp [Threads.left, Phase.left, hi]

variable {s s' : Threads κ τ} {t u : Thread} {ts : List Thread}

/-- A worker that moves on has one less `left`, and the other threads as many as before. -/
theorem left_of_worker {i : Nat} {phase : Option (Phase κ τ)}
    (hleft : Phase.left phase + 1 = Phase.left (s.worker i)) (r : WorkQueue κ τ)
    (hu : u ≠ .other) :
    Threads.left ⟨r, Function.update s.worker i phase, s.delivery⟩ u +
      (if Thread.worker i = u then 1 else 0) = s.left u := by
  cases u with
  | worker j =>
      by_cases hij : i = j
      · subst hij
        simpa [Threads.left] using hleft
      · simp [Threads.left, hij, Function.update_of_ne (Ne.symm hij)]
  | delivery => simp [Threads.left]
  | other => exact absurd rfl hu

theorem left_of_delivery {ks : Option (List κ)}
    (hleft : Threads.left ⟨s.queue, s.worker, ks⟩ .delivery + 1 = s.left .delivery)
    (r : WorkQueue κ τ) (hu : u ≠ .other) :
    Threads.left ⟨r, s.worker, ks⟩ u + (if Thread.delivery = u then 1 else 0) = s.left u := by
  cases u with
  | worker j => simp [Threads.left]
  | delivery => simpa [Threads.left] using hleft
  | other => exact absurd rfl hu

/-! ### Single calls -/

/-- A queue has shut down, and since another state no key has entered it anywhere. -/
structure Closed (q q' : WorkQueue κ τ) : Prop where
  shut : q'.shuttingDown = true
  queue : q'.queue = q.queue
  dirty : q'.dirty = q.dirty
  waiting : q'.waiting = q.waiting
  readyAt : q'.readyAt = q.readyAt
  processing : q'.processing.Sublist q.processing

theorem Closed.refl (hs : q.shuttingDown = true) : Closed q q :=
  ⟨hs, rfl, rfl, rfl, rfl, List.Sublist.refl _⟩

theorem Closed.trans (h : Closed q q') (h' : Closed q' q'') : Closed q q'' :=
  ⟨h'.shut, h'.queue.trans h.queue, h'.dirty.trans h.dirty, h'.waiting.trans h.waiting,
    h'.readyAt.trans h.readyAt, h'.processing.trans h.processing⟩

theorem shutDown_closed (q : WorkQueue κ τ) : Closed q q.shutDown :=
  ⟨rfl, rfl, rfl, rfl, rfl, List.Sublist.refl _⟩

variable [BEq κ]

theorem release_closed (hs : q.shuttingDown = true) (k : κ) : Closed q (q.release k) := by
  rw [release_of_shuttingDown hs]
  exact ⟨hs, rfl, rfl, rfl, rfl, List.filter_sublist⟩

variable [TimeScale τ]

theorem addRateLimited_of_shuttingDown (hs : q.shuttingDown = true) (now : τ) (k : κ) :
    q.addRateLimited now k = (q.backoff k).2 :=
  addAfter_of_shuttingDown (q := (q.backoff k).2) hs now k (q.backoff k).1

theorem addRateLimited_closed (hs : q.shuttingDown = true) (now : τ) (k : κ) :
    Closed q (q.addRateLimited now k) := by
  rw [addRateLimited_of_shuttingDown hs]
  exact ⟨hs, rfl, rfl, rfl, rfl, List.Sublist.refl _⟩

/-- No call lets a key into a queue that has shut down. -/
theorem Call.run_closed (hs : q.shuttingDown = true) (c : Call κ τ) : Closed q (c.run q) := by
  cases c with
  | add k =>
      rw [run, add_of_shuttingDown hs]
      exact Closed.refl hs
  | take =>
      rw [run, take_of_shuttingDown hs]
      exact Closed.refl hs
  | release k => exact release_closed hs k
  | forget k => exact ⟨hs, rfl, rfl, rfl, rfl, List.Sublist.refl _⟩
  | backoff k => exact ⟨hs, rfl, rfl, rfl, rfl, List.Sublist.refl _⟩
  | addRateLimited now k => exact addRateLimited_closed hs now k
  | addAfter now k delay =>
      rw [run, addAfter_of_shuttingDown hs]
      exact Closed.refl hs
  | deliver now =>
      rw [run, deliver_of_shuttingDown hs]
      exact Closed.refl hs
  | shutDown => exact shutDown_closed q

/-- The keys that are due and the queue without them. Nothing after the shutdown: the loop that
delivers them ends. -/
def collect (now : τ) (q : WorkQueue κ τ) : Option (List κ × WorkQueue κ τ) :=
  if q.shuttingDown then none else some (q.due now, q.withoutDue now)

/-- `deliver` is `collect`, and then `add` for each key. -/
theorem deliver_eq_collect (now : τ) (q : WorkQueue κ τ) :
    q.deliver now = match q.collect now with
      | none => q
      | some (ks, r) => ks.foldl (fun q k => q.add k) r := by
  cases hs : q.shuttingDown with
  | true => simp [collect, hs, deliver_of_shuttingDown hs]
  | false => simp [collect, hs, q.deliver_eq now hs]

/-! ### Steps -/

/-- One step of a thread. A worker waits while there is no key for it and the queue is not shut
down. -/
inductive Step : Threads κ τ → Thread → Threads κ τ → Prop
  | take {s : Threads κ τ} {i : Nat} {k : κ} {q : WorkQueue κ τ} :
      s.worker i = some .idle → s.queue.take = (.key k, q) → Step s (.worker i)
        { s with queue := q, worker := Function.update s.worker i (some (.trying k)) }
  | leave {s : Threads κ τ} {i : Nat} {q : WorkQueue κ τ} :
      s.worker i = some .idle → s.queue.take = (.shutDown, q) → Step s (.worker i)
        { s with queue := q, worker := Function.update s.worker i none }
  | succeed {s : Threads κ τ} {i : Nat} {k : κ} : s.worker i = some (.trying k) →
      Step s (.worker i)
        { s with
          queue := s.queue.forget k
          worker := Function.update s.worker i (some (.succeeded k)) }
  | fail {s : Threads κ τ} {i : Nat} {k : κ} (now : τ) : s.worker i = some (.trying k) →
      Step s (.worker i)
        { s with
          queue := s.queue.addRateLimited now k
          worker := Function.update s.worker i (some (.failed k now)) }
  | release {s : Threads κ τ} {i : Nat} {k : κ} :
      (∃ asked, s.worker i = some (.failed k asked)) ∨ s.worker i = some (.succeeded k) →
      Step s (.worker i)
        { s with
          queue := s.queue.release k
          worker := Function.update s.worker i (some .idle) }
  | collect {s : Threads κ τ} {ks : List κ} {q : WorkQueue κ τ} (now : τ) :
      s.delivery = some [] → s.queue.collect now = some (ks, q) →
      Step s .delivery { s with queue := q, delivery := some ks }
  | deliver {s : Threads κ τ} {k : κ} {ks : List κ} : s.delivery = some (k :: ks) →
      Step s .delivery { s with queue := s.queue.add k, delivery := some ks }
  | retire {s : Threads κ τ} (now : τ) : s.delivery = some [] → s.queue.collect now = none →
      Step s .delivery { s with delivery := none }
  | other {s : Threads κ τ} (c : Call κ τ) : Step s .other { s with queue := c.run s.queue }

/-- Any number of steps, with the threads that took them. -/
inductive Steps : Threads κ τ → List Thread → Threads κ τ → Prop
  | none (s : Threads κ τ) : Steps s [] s
  | step {s s' s'' : Threads κ τ} {t : Thread} {ts : List Thread} :
      Step s t s' → Steps s' ts s'' → Steps s (t :: ts) s''

theorem Step.closed (h : Step s t s') (hs : s.queue.shuttingDown = true) :
    Closed s.queue s'.queue := by
  cases h with
  | take _ ht =>
      rw [take_of_shuttingDown hs] at ht
      cases ht
  | leave _ ht =>
      rw [take_of_shuttingDown hs] at ht
      cases ht
      exact Closed.refl hs
  | @succeed i k _ => exact Call.run_closed hs (.forget k)
  | fail now _ => exact addRateLimited_closed hs now _
  | release _ => exact release_closed hs _
  | collect now _ hc => simp [WorkQueue.collect, hs] at hc
  | @deliver k ks _ => exact Call.run_closed hs (.add k)
  | retire _ _ _ => exact Closed.refl hs
  | other c => exact Call.run_closed hs c

/-- A step after the shutdown takes `left` of its own thread down by one. -/
theorem Step.left_eq (h : Step s t s') (hs : s.queue.shuttingDown = true) (hu : u ≠ .other) :
    s'.left u + (if t = u then 1 else 0) = s.left u := by
  cases h with
  | take _ ht =>
      rw [take_of_shuttingDown hs] at ht
      cases ht
  | leave hi _ => exact left_of_worker (by rw [hi]; rfl) _ hu
  | succeed hi => exact left_of_worker (by rw [hi]; rfl) _ hu
  | fail now hi => exact left_of_worker (by rw [hi]; rfl) _ hu
  | release hi =>
      rcases hi with ⟨_, hi⟩ | hi
      · exact left_of_worker (by rw [hi]; rfl) _ hu
      · exact left_of_worker (by rw [hi]; rfl) _ hu
  | collect now _ hc => simp [WorkQueue.collect, hs] at hc
  | deliver hd => exact left_of_delivery (by simp [Threads.left, hd]) _ hu
  | retire now hd _ => exact left_of_delivery (by simp [Threads.left, hd]) _ hu
  | other c =>
      cases u with
      | worker j => simp [Threads.left]
      | delivery => simp [Threads.left]
      | other => exact absurd rfl hu

/-- After the shutdown a thread with steps `left` can take one. -/
theorem exists_step (hs : s.queue.shuttingDown = true) (hleft : 0 < s.left t) :
    ∃ s', Step s t s' := by
  cases t with
  | worker i =>
      cases hi : s.worker i with
      | none => simp [Threads.left, Phase.left, hi] at hleft
      | some phase =>
          cases phase with
          | idle => exact ⟨_, .leave hi (take_of_shuttingDown hs)⟩
          | trying k => exact ⟨_, .succeed hi⟩
          | failed k asked => exact ⟨_, .release (Or.inl ⟨asked, hi⟩)⟩
          | succeeded k => exact ⟨_, .release (Or.inr hi)⟩
  | delivery =>
      cases hd : s.delivery with
      | none => simp [Threads.left, hd] at hleft
      | some ks =>
          cases ks with
          | nil => exact ⟨_, .retire 0 hd (if_pos hs)⟩
          | cons k ks => exact ⟨_, .deliver hd⟩
  | other => simp [Threads.left] at hleft

/-- `Closed` holds over steps, by induction on them. -/
theorem Steps.closed (h : Steps s ts s') (hs : s.queue.shuttingDown = true) :
    Closed s.queue s'.queue := by
  induction h with
  | none s => exact Closed.refl hs
  | step first _ ih =>
      have closed := first.closed hs
      exact closed.trans (ih closed.shut)

/-- `left` goes down by the number of steps of the thread, by induction on the steps. -/
theorem Steps.left_eq (h : Steps s ts s') (hs : s.queue.shuttingDown = true) (hu : u ≠ .other) :
    s'.left u + ts.count u = s.left u := by
  induction h with
  | none s => simp
  | step first _ ih =>
      have one := first.left_eq hs hu
      have rest := ih (first.closed hs).shut
      rw [List.count_cons]
      simp only [beq_iff_eq]
      omega

/-- One step adds each collected key, by induction on the keys. -/
theorem steps_adding (worker : Nat → Option (Phase κ τ)) (ks : List κ) (q : WorkQueue κ τ) :
    Steps ⟨q, worker, some ks⟩ (List.replicate ks.length .delivery)
      ⟨ks.foldl (fun q k => q.add k) q, worker, some []⟩ := by
  induction ks generalizing q with
  | nil => exact .none _
  | cons k ks ih => exact .step (.deliver rfl) (ih (q.add k))

theorem deliver_steps (worker : Nat → Option (Phase κ τ)) {now : τ} {q r : WorkQueue κ τ}
    {ks : List κ} (hc : q.collect now = some (ks, r)) :
    Steps ⟨q, worker, some []⟩ (.delivery :: List.replicate ks.length .delivery)
      ⟨q.deliver now, worker, some []⟩ := by
  have adding := steps_adding worker ks r
  rw [deliver_eq_collect now q, hc]
  exact .step (.collect now rfl hc) adding

end WorkQueue

/-! ### The workers of the operator -/

namespace Operator

open WorkQueue

variable {σ τ : Type} [ClusterApi σ] [TimeScale τ] {o o' : Operator σ τ}

section steps

variable {worker : Nat → Option (Phase Key τ)} (delivery : Option (List Key)) {i : Nat} {k : Key}

theorem processKey_steps (options : EnforcementOptions) (hi : worker i = some (.trying k))
    (o : Operator σ τ) :
    Steps ⟨o.queue, worker, delivery⟩ [.worker i, .worker i]
      ⟨(processKey options k o).queue, Function.update worker i (some .idle), delivery⟩ := by
  have same := sync_queue options k o
  unfold processKey
  rcases hs : sync options k.toJson o with ⟨result, t⟩
  rw [hs] at same
  rw [← same]
  have released : ∀ {q : WorkQueue Key τ} {phase : Phase Key τ},
      ((∃ asked, phase = .failed k asked) ∨ phase = .succeeded k) →
      Steps ⟨q, Function.update worker i (some phase), delivery⟩ [.worker i]
        ⟨q.release k, Function.update worker i (some .idle), delivery⟩ := by
    intro q phase hphase
    have last := Step.release (s := ⟨q, Function.update worker i (some phase), delivery⟩) (i := i)
      (k := k) (by simpa using hphase)
    rw [Function.update_idem] at last
    exact .step last (.none _)
  cases result with
  | ok v => exact .step (.succeed hi) (released (Or.inr rfl))
  | error f => exact .step (.fail _ hi) (released (Or.inl ⟨_, rfl⟩))

theorem processNext_steps {options : EnforcementOptions} (hi : worker i = some .idle)
    (hp : processNext options o = (.key k, o')) :
    Steps ⟨o.queue, worker, delivery⟩ [.worker i, .worker i, .worker i]
      ⟨o'.queue, worker, delivery⟩ := by
  unfold processNext at hp
  rcases ht : o.queue.take with ⟨taken, q⟩
  rw [ht] at hp
  cases taken with
  | shutDown => cases hp
  | nothing => cases hp
  | key l =>
      cases hp
      have tries : Function.update worker i (some (.trying k)) i = some (.trying k) := by simp
      have rest := processKey_steps delivery options tries { o with queue := q }
      rw [Function.update_idem, ← hi, Function.update_eq_self] at rest
      exact .step (.take hi ht) rest

end steps

theorem processNext_of_shuttingDown (options : EnforcementOptions)
    (hs : o.queue.shuttingDown = true) : processNext options o = (.shutDown, o) := by
  simp [processNext, take_of_shuttingDown hs]

theorem work_of_shuttingDown (options : EnforcementOptions) (n : Nat)
    (hs : o.queue.shuttingDown = true) : work options n o = o := by
  cases n with
  | zero => rfl
  | succ n => simp [work, processNext_of_shuttingDown options hs]

/-- **The shutdown is final.** From any state in which the queue is shut down, whatever is queued,
marked, in hand or delayed there, and after any steps of any threads in any order:

* no key has entered the queue, the marked keys, those in processing or the delayed ones, and the
  queue stays shut down;
* asking for a key is answered at once, with the shutdown, and a release only takes the key out of
  processing;
* a worker, or the loop that delivers delayed keys, has never to wait, and it has come nearer to its
  end by each of its steps: `Threads.left` counts those to come, at most three for a worker;
* a pass of the loop that delivers, which takes its steps if it collects keys, collects none any
  more;
* a worker of the operator, which takes its three steps if there is a key to process, only finds the
  shutdown: it ends, at most after the namespace that it works on. -/
theorem shutdown_is_final (options : EnforcementOptions) {s s' : Threads Key τ} {ts : List Thread}
    (h : Steps { s with queue := s.queue.shutDown } ts s') :
    Closed s.queue s'.queue ∧
      s'.queue.take = (.shutDown, s'.queue) ∧
      (∀ k, s'.queue.release k =
        { s'.queue with processing := removeKey k s'.queue.processing }) ∧
      (∀ t ≠ .other, s'.left t + ts.count t = s.left t ∧
        (0 < s'.left t → ∃ s'', Step s' t s'')) ∧
      (∀ i, s.left (.worker i) ≤ 3) ∧
      (∀ now, s'.queue.collect now = none) ∧
      (∀ worker (now : τ) (q r : WorkQueue Key τ) (ks : List Key), q.collect now = some (ks, r) →
        Steps ⟨q, worker, some []⟩ (.delivery :: List.replicate ks.length .delivery)
          ⟨q.deliver now, worker, some []⟩) ∧
      (∀ worker delivery (i : Nat) (k : Key) (o o' : Operator σ τ), worker i = some .idle →
        processNext options o = (.key k, o') →
          Steps ⟨o.queue, worker, delivery⟩ [.worker i, .worker i, .worker i]
            ⟨o'.queue, worker, delivery⟩) ∧
      ∀ o : Operator σ τ, o.queue = s'.queue → processNext options o = (.shutDown, o) ∧
        ∀ n k, work options n o = o ∧
          work options n (processKey options k o) = processKey options k o := by
  have closed := (shutDown_closed s.queue).trans (h.closed rfl)
  refine ⟨closed, take_of_shuttingDown closed.shut, release_of_shuttingDown closed.shut,
    fun t ht => ⟨h.left_eq rfl ht, exists_step closed.shut⟩, left_worker_le s,
    fun now => if_pos closed.shut, fun worker _ _ _ _ hc => deliver_steps worker hc,
    fun worker delivery i k o o' hi hp => processNext_steps delivery hi hp, fun o ho => ?_⟩
  have shut : o.queue.shuttingDown = true := by
    rw [ho]
    exact closed.shut
  refine ⟨processNext_of_shuttingDown options shut, fun n k =>
    ⟨work_of_shuttingDown options n shut, work_of_shuttingDown options n ?_⟩⟩
  let worker : Nat → Option (Phase Key τ) := fun _ => some (.trying k)
  have tries : worker 0 = some (.trying k) := rfl
  exact ((processKey_steps none options tries o).closed shut).shut

/-- At the shutdown one namespace is worked on and marked again, one is queued, one delayed and one
collected for delivery: the first is released, the others stay where they are, and the worker and
the delivering loop have ended. -/
theorem shutdown_is_final_busy :
    let q : WorkQueue Key ℚ :=
      ((((empty "" 1 4).add (.text "busy")).add (.text "queued")).take.2.add
        (.text "busy")).addAfter 0 (.text "delayed") 5
    let s : Threads Key ℚ :=
      ⟨q, fun i => if i = 0 then some (.trying (.text "busy")) else some .idle,
        some [.text "collected"]⟩
    let ts : List Thread :=
      [.worker 0, .worker 1, .delivery, .other, .worker 0, .delivery, .worker 0]
    ∃ s', Steps { s with queue := s.queue.shutDown } ts s' ∧
      s'.queue.queue = [.text "queued"] ∧ s'.queue.dirty = [.text "queued", .text "busy"] ∧
      s'.queue.waiting.map (·.key) = [.text "delayed"] ∧ s'.queue.processing = [] ∧
      s'.queue.take.1 = .shutDown ∧ s'.left (.worker 0) = 0 ∧ s'.left .delivery = 0 := by
  intro q s ts
  obtain ⟨s', steps, hprocessing⟩ : ∃ s', Steps { s with queue := s.queue.shutDown } ts s' ∧
      s'.queue.processing = [] :=
    ⟨_, .step (.fail 3 rfl) (.step (.leave rfl (take_of_shuttingDown rfl)) (.step (.deliver rfl)
      (.step (.other (.add (.text "late"))) (.step (.release (Or.inl ⟨3, rfl⟩))
        (.step (.retire 4 rfl rfl) (.step (.leave rfl (take_of_shuttingDown rfl))
          (.none _))))))), by decide +kernel⟩
  obtain ⟨closed, taken, _, left, _⟩ := shutdown_is_final (σ := InMemory) .standard steps
  have worker := (left (.worker 0) (by decide)).1
  have delivery := (left .delivery (by decide)).1
  have fromWorker : s.left (.worker 0) = ts.count (.worker 0) := by decide
  have fromDelivery : s.left .delivery = ts.count .delivery := by decide
  refine ⟨s', steps, closed.queue.trans rfl, closed.dirty.trans (by decide +kernel), ?_,
    hprocessing, congrArg Prod.fst taken, by omega, by omega⟩
  rw [closed.waiting]
  decide +kernel

end Operator

end QuotaWarden
