import QuotaWarden.Proofs.FailedNamespaces

/-! # Queued keys wait their turn

The queue hands out its first key, and whatever else it is called for adds keys at its end. So a
queued key is passed by no other key, however often one is added again, fails or is delivered.

* `answers` are the answers to those calls of a continuation that ask for a key, and `after` is the
  queue that it leads to.
* `Call.run_queue` says where the queued keys are after one call: up to the shutdown they stay in
  their places, or the first one is handed out and the others move up by one.
* `answers_queued` follows a place through a continuation, and `waits_its_turn` is the main result.
-/

namespace QuotaWarden.WorkQueue

open TimeScale

variable {κ τ : Type} [BEq κ] {q : WorkQueue κ τ}

/-! ### Single calls -/

theorem add_keeps_places (k : κ) (q : WorkQueue κ τ) : q.queue <+: (q.add k).queue := by
  rcases q.add_cases k with ⟨_, e⟩ | ⟨_, _, e⟩ | ⟨_, _, e⟩
  · rw [e]
  · rw [e]
  · rw [e]
    exact List.prefix_append _ _

theorem foldl_add_keeps_places (ks : List κ) (q : WorkQueue κ τ) :
    q.queue <+: (ks.foldl (fun q k => q.add k) q).queue := by
  induction ks generalizing q with
  | nil => exact List.prefix_rfl
  | cons k r ih => exact (add_keeps_places k q).trans (ih _)

theorem release_keeps_places (k : κ) (q : WorkQueue κ τ) : q.queue <+: (q.release k).queue := by
  rcases q.release_cases k with ⟨_, e⟩ | ⟨_, e⟩
  · rw [e]
  · rw [e]
    exact List.prefix_append _ _

theorem take_of_queue {k : κ} {r : List κ} (hs : q.shuttingDown = false) (hq : q.queue = k :: r) :
    q.take.1 = .key k ∧ q.take.2.queue = r := by
  simp [take, hs, hq]

variable [TimeScale τ]

theorem addAfter_keeps_places (now : τ) (k : κ) (delay : τ) (q : WorkQueue κ τ) :
    q.queue <+: (q.addAfter now k delay).queue := by
  rcases q.addAfter_cases now k delay with ⟨_, e⟩ | ⟨_, hq, _⟩
  · rw [e]
    exact add_keeps_places k q
  · rw [hq]

theorem deliver_keeps_places (now : τ) (q : WorkQueue κ τ) :
    q.queue <+: (q.deliver now).queue := by
  cases hs : q.shuttingDown with
  | true =>
      rw [deliver_of_shuttingDown hs]
  | false =>
      rw [q.deliver_eq now hs]
      exact foldl_add_keeps_places (q.due now) (q.withoutDue now)

/-- The answer to a call that asks for a key. -/
def Call.answer? : Call κ τ → WorkQueue κ τ → Option (Taken κ)
  | take, q => some q.take.1
  | _, _ => none

/-- Only `shutDown` shuts a queue down. -/
theorem Call.run_open {c : Call κ τ} (hc : c ≠ .shutDown) (hs : q.shuttingDown = false) :
    (c.run q).shuttingDown = false := by
  cases c with
  | add k => exact (q.add_shuttingDown k).trans hs
  | take => exact take_shuttingDown.trans hs
  | release k => exact (release_shuttingDown k).trans hs
  | forget k => exact hs
  | backoff k => exact hs
  | addRateLimited now k => exact (addRateLimited_shuttingDown now k).trans hs
  | addAfter now k delay =>
      rcases q.addAfter_cases now k delay with ⟨_, e⟩ | ⟨_, _, _, _, e⟩
      · exact (congrArg shuttingDown e).trans ((q.add_shuttingDown k).trans hs)
      · exact e.trans hs
  | deliver now => exact (deliver_shuttingDown now).trans hs
  | shutDown => exact absurd rfl hc

/-- A call keeps the queued keys in their places, or hands out the first one. -/
theorem Call.run_queue (c : Call κ τ) {k : κ} {r : List κ} (hs : q.shuttingDown = false)
    (hq : q.queue = k :: r) :
    c.answer? q = none ∧ q.queue <+: (c.run q).queue ∨
      c.answer? q = some (.key k) ∧ (c.run q).queue = r := by
  cases c with
  | add k => exact Or.inl ⟨rfl, add_keeps_places k q⟩
  | take =>
      obtain ⟨given, left⟩ := take_of_queue hs hq
      exact Or.inr ⟨congrArg some given, left⟩
  | release k => exact Or.inl ⟨rfl, release_keeps_places k q⟩
  | forget k => exact Or.inl ⟨rfl, List.prefix_rfl⟩
  | backoff k => exact Or.inl ⟨rfl, List.prefix_rfl⟩
  | addRateLimited now k => exact Or.inl ⟨rfl, addAfter_keeps_places now k _ (q.backoff k).2⟩
  | addAfter now k delay => exact Or.inl ⟨rfl, addAfter_keeps_places now k delay q⟩
  | deliver now => exact Or.inl ⟨rfl, deliver_keeps_places now q⟩
  | shutDown => exact Or.inl ⟨rfl, List.prefix_rfl⟩

/-! ### Continuations -/

/-- The queue after some calls. -/
def after (cs : List (Call κ τ)) (q : WorkQueue κ τ) : WorkQueue κ τ :=
  cs.foldl (fun q c => c.run q) q

/-- The answers to those of some calls that ask for a key, in order. -/
def answers : List (Call κ τ) → WorkQueue κ τ → List (Taken κ)
  | [], _ => []
  | c :: cs, q => (c.answer? q).toList ++ answers cs (c.run q)

variable {cs : List (Call κ τ)} {i : Nat} {k : κ}

/-- The key at place `i` is the `i`-th answer, and until then at place `i` less the answers so far,
by induction on the calls. -/
theorem answers_queued (hs : q.shuttingDown = false) (hc : ∀ c ∈ cs, c ≠ .shutDown)
    (hk : q.queue[i]? = some k) :
    (∀ a, (answers cs q)[i]? = some a → a = .key k) ∧
      ((answers cs q).length ≤ i → (after cs q).queue[i - (answers cs q).length]? = some k) := by
  induction cs generalizing q i with
  | nil => simp [answers, after, hk]
  | cons c cs ih =>
      have opened := Call.run_open (hc c (by simp)) hs
      have rest : ∀ c ∈ cs, c ≠ .shutDown := fun d hd => hc d (by simp [hd])
      obtain ⟨j, r, hq⟩ : ∃ j r, q.queue = j :: r := by
        cases hq : q.queue with
        | nil => simp [hq] at hk
        | cons j r => exact ⟨j, r, rfl⟩
      rcases c.run_queue hs hq with ⟨ha, hqueue⟩ | ⟨ha, hqueue⟩
      · have stays : (c.run q).queue[i]? = some k := by
          obtain ⟨joined, e⟩ := hqueue
          have hi : i < q.queue.length := (List.getElem?_eq_some_iff.mp hk).1
          rw [← e, List.getElem?_append_left hi, hk]
        have e : answers (c :: cs) q = answers cs (c.run q) := by simp [answers, ha]
        rw [e]
        exact ih opened rest stays
      · have e : answers (c :: cs) q = .key j :: answers cs (c.run q) := by simp [answers, ha]
        rw [e]
        cases i with
        | zero =>
            have first : j = k := by simpa [hq] using hk
            simp [first]
        | succ i =>
            have up : (c.run q).queue[i]? = some k := by simpa [hq, hqueue] using hk
            obtain ⟨given, waits⟩ := ih opened rest up
            refine ⟨fun a h => given a (by simpa using h), fun h => ?_⟩
            rw [List.length_cons, Nat.add_sub_add_right]
            exact waits (by simpa using h)

variable [EquivBEq κ] {name : String} {base cap : τ} {h : List (Event κ)}

/-- **A queued key waits for the keys before it and for no others.** From any state of a run, and
with any calls short of the shutdown, whatever they add, release, delay or deliver, the key at the
place `i` of the queue is the answer to the `i+1`-th call for a key. The answers before are the keys
before it, which are other keys, and until then it moves up by one place with each answer. -/
theorem waits_its_turn (run : Run name base cap h q) (hs : q.shuttingDown = false)
    (hc : ∀ c ∈ cs, c ≠ .shutDown) (hk : q.queue[i]? = some k) :
    (∀ a, (answers cs q)[i]? = some a → a = .key k) ∧
      (∀ m < i, ∀ a, (answers cs q)[m]? = some a →
        ∃ j, q.queue[m]? = some j ∧ a = .key j ∧ (j == k) = false) ∧
      ((answers cs q).length ≤ i → (after cs q).queue[i - (answers cs q).length]? = some k) := by
  obtain ⟨given, waits⟩ := answers_queued hs hc hk
  refine ⟨given, fun m hm a ha => ?_, waits⟩
  obtain ⟨hi, rfl⟩ := List.getElem?_eq_some_iff.mp hk
  have before : q.queue[m]? = some q.queue[m] := List.getElem?_eq_getElem (hm.trans hi)
  have distinct := List.pairwise_iff_getElem.mp run.accounted.consistent.distinct
  exact ⟨q.queue[m], before, (answers_queued hs hc before).1 a ha,
    distinct m i (hm.trans hi) hi hm⟩

/-- One key is added again while it is worked on, another one fails and is delivered again: the last
of three keys is handed out when the one before it has been. -/
theorem waits_its_turn_hot_key :
    let q : WorkQueue String ℚ :=
      ((((empty "" 1 4).add "hot").take.2.add "failing").add "cold").add "hot"
    let cs : List (Call String ℚ) :=
      [.release "hot", .add "hot", .take, .addRateLimited 0 "failing", .release "failing",
        .deliver 1, .take, .take]
    q.queue = ["failing", "cold"] ∧
      answers cs q = [.key "failing", .key "cold", .key "hot"] ∧
      (answers cs q)[1]? = some (.key "cold") := by
  intro q cs
  obtain ⟨h, run⟩ : ∃ h, Run "" 1 4 h q :=
    ⟨_, .call (.add "hot") (.call (.add "cold") (.call (.add "failing") (.call .take
      (.call (.add "hot") .start trivial) nofun) trivial) trivial) trivial⟩
  have short : ∀ c ∈ cs, c ≠ .shutDown := by simp [cs]
  have given := (waits_its_turn (i := 1) (k := "cold") run rfl short rfl).1
  have asked : (answers cs q).length = 3 := by decide +kernel
  refine ⟨rfl, by decide +kernel, ?_⟩
  have second : 1 < (answers cs q).length := by omega
  rw [List.getElem?_eq_getElem second, given _ (List.getElem?_eq_getElem second)]

end QuotaWarden.WorkQueue
