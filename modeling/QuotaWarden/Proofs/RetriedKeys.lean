import QuotaWarden.Proofs.ExactTime
import QuotaWarden.Proofs.PendingKeys
import Mathlib.Logic.Function.Basic

/-! # Failed keys are tried again

Workers take keys, try them, tell the queue how it went and release them. `Staffed` ties the queue
to the phases of the workers and to the outcomes of all tries: a key is in processing exactly while
a worker has it, its failures are those since the last try that succeeded, and a key with failures
is pending. Whatever the queue is called for keeps this; of one key, any number of calls about other
keys takes nothing (`Spares`).

`Due` is what a failed try asks for: the key is marked, or has a time no later than the time of
asking and the delay. `Due.exact` reads the delay off in exact arithmetic. -/

namespace QuotaWarden

open TimeScale

namespace WorkQueue

variable {κ τ : Type}

/-! ### Workers -/

/-- What a worker is at. -/
inductive Phase (κ τ : Type) where
  | idle
  /-- It tries a key. -/
  | trying (k : κ)
  /-- Its try of a key failed, and at this time it asked for another one. -/
  | failed (k : κ) (asked : τ)
  /-- Its try of a key succeeded. -/
  | succeeded (k : κ)

/-- The key that a worker has. -/
def Phase.key? : Phase κ τ → Option κ
  | idle => none
  | trying k => some k
  | failed k _ => some k
  | succeeded k => some k

variable [BEq κ]

/-- The failed tries of a key since its last one that succeeded, where the latest try comes first.
-/
def failuresSince (k : κ) : List (κ × Bool) → Nat
  | [] => 0
  | (j, succeeded) :: earlier =>
    if j == k then if succeeded then 0 else failuresSince k earlier + 1
    else failuresSince k earlier

/-- Which worker has which key: a key is in processing while a worker has it, and no two workers
have one key. -/
structure InHand (hands : Nat → Option κ) (q : WorkQueue κ τ) : Prop where
  held : ∀ k, q.processing.contains k = true ↔ ∃ i j, hands i = some j ∧ (j == k) = true
  apart : ∀ i i' k k', hands i = some k → hands i' = some k' → (k == k') = true → i = i'

/-! ### Calls about other keys -/

/-- From one queue to the next nothing is taken from a key: its failures and the delays stay, it
stays marked, and its time stays unless it is marked. -/
structure Spares (j : κ) (q q' : WorkQueue κ τ) : Prop where
  base : q'.baseDelay = q.baseDelay
  cap : q'.maxDelay = q.maxDelay
  count : q'.failureCount j = q.failureCount j
  marked : q.dirty.contains j = true → q'.dirty.contains j = true
  ready : ∀ r, Dictionary.get? j q.readyAt = some r →
    q'.dirty.contains j = true ∨ Dictionary.get? j q'.readyAt = some r

variable {q q' q'' : WorkQueue κ τ} {j k : κ}

theorem Spares.refl (j : κ) (q : WorkQueue κ τ) : Spares j q q :=
  ⟨rfl, rfl, rfl, id, fun _ => Or.inr⟩

theorem Spares.trans (h : Spares j q q') (h' : Spares j q' q'') : Spares j q q'' := by
  refine ⟨h'.base.trans h.base, h'.cap.trans h.cap, h'.count.trans h.count,
    fun hd => h'.marked (h.marked hd), fun r hr => ?_⟩
  rcases h.ready r hr with hd | hr
  · exact Or.inl (h'.marked hd)
  · exact h'.ready r hr

theorem Spares.waiting (h : Spares j q q') (hw : q.Waiting j) : q'.Waiting j := by
  rcases hw with hd | hr
  · exact Or.inl (h.marked hd)
  · obtain ⟨r, hr⟩ := Option.isSome_iff_exists.mp hr
    rcases h.ready r hr with hd | hr
    · exact Or.inl hd
    · exact Or.inr (Option.isSome_iff_exists.mpr ⟨r, hr⟩)

variable [EquivBEq κ]

theorem add_spares (j k : κ) (q : WorkQueue κ τ) : Spares j q (q.add k) := by
  have same : (q.add k).baseDelay = q.baseDelay ∧ (q.add k).maxDelay = q.maxDelay ∧
      (q.add k).failures = q.failures := by
    rcases q.add_cases k with ⟨_, e⟩ | ⟨_, _, e⟩ | ⟨_, _, e⟩ <;> rw [e] <;> exact ⟨rfl, rfl, rfl⟩
  obtain ⟨hbase, hcap, hfailures⟩ := same
  refine ⟨hbase, hcap, ?_, fun hd => add_keeps_marked hd k, fun r hr => Or.inr ?_⟩
  · unfold failureCount
    rw [hfailures]
  · rwa [add_readyAt]

theorem foldl_add_spares (j : κ) (ks : List κ) (q : WorkQueue κ τ) :
    Spares j q (ks.foldl (fun q k => q.add k) q) := by
  induction ks generalizing q with
  | nil => exact Spares.refl j q
  | cons k r ih => exact (add_spares j k q).trans (ih _)

omit [EquivBEq κ] in
theorem release_spares (j k : κ) (q : WorkQueue κ τ) : Spares j q (q.release k) := by
  rcases q.release_cases k with ⟨_, e⟩ | ⟨_, e⟩
  · rw [e]
    exact ⟨rfl, rfl, rfl, id, fun _ => Or.inr⟩
  · rw [e]
    exact ⟨rfl, rfl, rfl, id, fun _ => Or.inr⟩

omit [EquivBEq κ] in
theorem eq_of_take (ht : q.take = (.key k, q')) : ∃ r, q.queue = k :: r ∧
    q' = { q with
      queue := r
      processing := insertKey k q.processing
      dirty := removeKey k q.dirty } := by
  rcases q.take_cases with ⟨hn, _⟩ | ⟨l, r, _, hq, e⟩
  · exact absurd (congrArg Prod.fst ht) (hn k)
  · rw [e, Prod.mk.injEq, Taken.key.injEq] at ht
    obtain ⟨rfl, rfl⟩ := ht
    exact ⟨r, hq, rfl⟩

theorem take_spares (hjk : (j == k) = false) (ht : q.take = (.key k, q')) : Spares j q q' := by
  obtain ⟨r, _, rfl⟩ := eq_of_take ht
  refine ⟨rfl, rfl, rfl, fun hd => ?_, fun _ => Or.inr⟩
  rw [contains_removeKey, hjk, hd]
  rfl

theorem failureCount_forget (j k : κ) (q : WorkQueue κ τ) :
    (q.forget k).failureCount j = if j == k then 0 else q.failureCount j := by
  unfold failureCount forget
  rw [Dictionary.get?_erase]
  split <;> rfl

theorem forget_spares (hjk : (j == k) = false) (q : WorkQueue κ τ) : Spares j q (q.forget k) := by
  refine ⟨rfl, rfl, ?_, id, fun _ => Or.inr⟩
  rw [failureCount_forget, hjk]
  rfl

theorem failureCount_congr (h : (j == k) = true) (q : WorkQueue κ τ) :
    q.failureCount j = q.failureCount k := by
  unfold failureCount
  rw [Dictionary.get?_congr h]

theorem foldl_add_consistent (h : q.Consistent) (ks : List κ) :
    (ks.foldl (fun q k => q.add k) q).Consistent := by
  induction ks generalizing q with
  | nil => exact h
  | cons k r ih => exact ih (add_consistent h k)

omit [EquivBEq κ] in
theorem foldl_add_processing (ks : List κ) (q : WorkQueue κ τ) :
    (ks.foldl (fun q k => q.add k) q).processing = q.processing := by
  induction ks generalizing q with
  | nil => rfl
  | cons k r ih => rw [List.foldl_cons, ih, add_processing]

omit [EquivBEq κ] in
theorem release_processing (k : κ) (q : WorkQueue κ τ) :
    (q.release k).processing = removeKey k q.processing := by
  rcases q.release_cases k with ⟨_, e⟩ | ⟨_, e⟩ <;> rw [e]

/-! ### Keys in hand -/

variable {hands : Nat → Option κ} {i : Nat}

omit [EquivBEq κ] in
theorem InHand.congr (h : InHand hands q) (hp : q'.processing = q.processing) :
    InHand hands q' :=
  ⟨by rw [hp]; exact h.held, h.apart⟩

omit [BEq κ] [EquivBEq κ] in
theorem update_eq_iff {α : Type} {f : Nat → α} {i i' : Nat} {x y : α} :
    Function.update f i x i' = y ↔ i' = i ∧ x = y ∨ i' ≠ i ∧ f i' = y := by
  by_cases h : i' = i
  · simp [h]
  · simp [h]

omit [BEq κ] [EquivBEq κ] in
theorem eq_of_update_eq {α : Type} {f : Nat → α} {i i' : Nat} {x y : α} (hxy : x ≠ y)
    (h : Function.update f i x i' = y) : f i' = y := by
  rcases update_eq_iff.mp h with ⟨_, hx⟩ | ⟨_, hf⟩
  · exact absurd hx hxy
  · exact hf

theorem take_free (hc : q.Consistent) (ht : q.take = (.key k, q')) :
    q.processing.contains k = false := by
  obtain ⟨r, hq, _⟩ := eq_of_take ht
  exact hc.idle k (by simp [hq])

omit [EquivBEq κ] in
theorem take_processing (ht : q.take = (.key k, q')) :
    q'.processing = insertKey k q.processing := by
  obtain ⟨r, _, rfl⟩ := eq_of_take ht
  rfl

theorem InHand.free (h : InHand hands q) (hc : q.Consistent) (ht : q.take = (.key k, q'))
    {i' : Nat} (hj : hands i' = some j) : (j == k) = false := by
  refine Bool.eq_false_iff.mpr fun hjk => ?_
  have busy := (h.held k).mpr ⟨i', j, hj, hjk⟩
  rw [take_free hc ht] at busy
  exact absurd busy Bool.false_ne_true

theorem InHand.take (h : InHand hands q) (hc : q.Consistent) (hi : hands i = none)
    (ht : q.take = (.key k, q')) : InHand (Function.update hands i (some k)) q' := by
  constructor
  · intro j
    rw [take_processing ht, contains_insertKey, Bool.or_eq_true, h.held]
    constructor
    · rintro (hj | ⟨i', x, hx, hxj⟩)
      · exact ⟨i, k, update_eq_iff.mpr (Or.inl ⟨rfl, rfl⟩), BEq.symm hj⟩
      · refine ⟨i', x, update_eq_iff.mpr (Or.inr ⟨?_, hx⟩), hxj⟩
        rintro rfl
        rw [hi] at hx
        cases hx
    · rintro ⟨i', x, hx, hxj⟩
      rcases update_eq_iff.mp hx with ⟨_, hl⟩ | ⟨_, hx⟩
      · rw [← Option.some.inj hl] at hxj
        exact Or.inl (BEq.symm hxj)
      · exact Or.inr ⟨i', x, hx, hxj⟩
  · intro a b x y hx hy hxy
    rcases update_eq_iff.mp hx with ⟨ha, hl⟩ | ⟨_, hx⟩
    · rcases update_eq_iff.mp hy with ⟨hb, _⟩ | ⟨_, hy⟩
      · rw [ha, hb]
      · rw [← Option.some.inj hl, BEq.comm, h.free hc ht hy] at hxy
        exact absurd hxy Bool.false_ne_true
    · rcases update_eq_iff.mp hy with ⟨_, hl⟩ | ⟨_, hy⟩
      · rw [← Option.some.inj hl, h.free hc ht hx] at hxy
        exact absurd hxy Bool.false_ne_true
      · exact h.apart a b x y hx hy hxy

theorem InHand.release (h : InHand hands q) (hi : hands i = some k) :
    InHand (Function.update hands i none) (q.release k) := by
  constructor
  · intro j
    rw [release_processing, contains_removeKey, Bool.and_eq_true, Bool.not_eq_true', h.held]
    constructor
    · rintro ⟨hjk, i', x, hx, hxj⟩
      refine ⟨i', x, update_eq_iff.mpr (Or.inr ⟨?_, hx⟩), hxj⟩
      rintro rfl
      rw [hi, Option.some.injEq] at hx
      rw [hx, BEq.comm, hxj] at hjk
      cases hjk
    · rintro ⟨i', x, hx, hxj⟩
      rcases update_eq_iff.mp hx with ⟨_, hn⟩ | ⟨hne, hx⟩
      · cases hn
      · refine ⟨Bool.eq_false_iff.mpr fun hjk => ?_, i', x, hx, hxj⟩
        exact hne (h.apart i' i x k hx hi (BEq.trans hxj hjk))
  · intro a b x y hx hy hxy
    rcases update_eq_iff.mp hx with ⟨_, hn⟩ | ⟨_, hx⟩
    · cases hn
    · rcases update_eq_iff.mp hy with ⟨_, hn⟩ | ⟨_, hy⟩
      · cases hn
      · exact h.apart a b x y hx hy hxy

variable [TimeScale τ]

/-! ### Delays -/

theorem failureCount_backoff (j k : κ) (q : WorkQueue κ τ) :
    (q.backoff k).2.failureCount j =
      if j == k then q.failureCount j + 1 else q.failureCount j := by
  unfold backoff failureCount
  rw [Dictionary.get?_set]
  split
  · next h => rw [Dictionary.get?_congr h]; rfl
  · rfl

theorem backoff_spares (hjk : (j == k) = false) (q : WorkQueue κ τ) :
    Spares j q (q.backoff k).2 := by
  refine ⟨rfl, rfl, ?_, id, fun _ => Or.inr⟩
  rw [failureCount_backoff, hjk]
  rfl

theorem schedule_spares (hjk : (j == k) = false) (ready : τ) (q : WorkQueue κ τ) :
    Spares j q (q.schedule k ready) := by
  refine ⟨rfl, rfl, rfl, id, fun r hr => Or.inr ?_⟩
  rw [schedule, Dictionary.get?_set_of_ne hjk]
  exact hr

theorem addAfter_spares (hjk : (j == k) = false) (now delay : τ) (q : WorkQueue κ τ) :
    Spares j q (q.addAfter now k delay) := by
  unfold addAfter
  split
  · exact Spares.refl j q
  · split
    · exact add_spares j k q
    · split
      · split
        · exact Spares.refl j q
        · exact schedule_spares hjk _ q
      · exact schedule_spares hjk _ q

theorem addRateLimited_spares (hjk : (j == k) = false) (now : τ) (q : WorkQueue κ τ) :
    Spares j q (q.addRateLimited now k) :=
  (backoff_spares hjk q).trans (addAfter_spares hjk now _ _)

theorem deliver_spares (j : κ) (now : τ) (q : WorkQueue κ τ) : Spares j q (q.deliver now) := by
  cases hs : q.shuttingDown with
  | true =>
      rw [deliver_of_shuttingDown hs]
      exact Spares.refl j q
  | false =>
      rw [q.deliver_eq now hs]
      have added := foldl_add_spares j (q.due now) (q.withoutDue now)
      refine ⟨added.base, added.cap, added.count, added.marked, fun r hr => ?_⟩
      rcases collectDue_get? (q.waiting.takeWhile fun d => atMost d.ready now) hr with hdue | hrest
      · exact Or.inl (foldl_add_marked hdue hs)
      · exact added.ready r hrest

omit [EquivBEq κ] in
theorem addRateLimited_eq (now : τ) (k : κ) (q : WorkQueue κ τ) :
    q.addRateLimited now k = (q.backoff k).2.addAfter now k (q.backoff k).1 := rfl

theorem deliver_consistent (h : q.Consistent) (now : τ) : (q.deliver now).Consistent := by
  cases hs : q.shuttingDown with
  | true =>
      rw [deliver_of_shuttingDown hs]
      exact h
  | false =>
      rw [q.deliver_eq now hs]
      exact foldl_add_consistent (q := q.withoutDue now) (h.congr rfl rfl rfl id) _

omit [EquivBEq κ] in
theorem deliver_processing (now : τ) (q : WorkQueue κ τ) :
    (q.deliver now).processing = q.processing := by
  cases hs : q.shuttingDown with
  | true => rw [deliver_of_shuttingDown hs]
  | false =>
      rw [q.deliver_eq now hs, foldl_add_processing]
      rfl

theorem addRateLimited_consistent (h : q.Consistent) (now : τ) (k : κ) :
    (q.addRateLimited now k).Consistent := by
  have counted : (q.backoff k).2.Consistent := h.congr rfl rfl rfl id
  rw [addRateLimited_eq]
  rcases (q.backoff k).2.addAfter_cases now k (q.backoff k).1 with
    ⟨_, e⟩ | ⟨_, hq, hd, hp, hs⟩
  · rw [e]
    exact add_consistent counted k
  · exact counted.congr hq hd hp (by rw [hs]; exact id)

omit [EquivBEq κ] in
theorem addRateLimited_processing (now : τ) (k : κ) (q : WorkQueue κ τ) :
    (q.addRateLimited now k).processing = q.processing := by
  rw [addRateLimited_eq]
  rcases (q.backoff k).2.addAfter_cases now k (q.backoff k).1 with ⟨_, e⟩ | ⟨_, _, _, hp, _⟩
  · rw [e, add_processing]
    rfl
  · exact hp

/-! ### Another try -/

/-- What asking for another try of a key at a time promises: the key is marked, or it has a time no
later than that time and the delay for its failures. -/
def Due (k : κ) (asked : τ) (q : WorkQueue κ τ) : Prop :=
  q.dirty.contains k = true ∨ ∃ ready, Dictionary.get? k q.readyAt = some ready ∧
    (ready = asked + q.delayAfter (q.failureCount k - 1) ∨
      atMost ready (asked + q.delayAfter (q.failureCount k - 1)) = true)

omit [EquivBEq κ] in
theorem Due.waiting {asked : τ} (h : q.Due k asked) : q.Waiting k := by
  rcases h with hd | ⟨ready, hr, _⟩
  · exact Or.inl hd
  · exact Or.inr (Option.isSome_iff_exists.mpr ⟨ready, hr⟩)

omit [EquivBEq κ] in
theorem Due.spared {asked : τ} (h : q.Due k asked) (hs : Spares k q q') : q'.Due k asked := by
  have delays : q'.delayAfter (q'.failureCount k - 1) = q.delayAfter (q.failureCount k - 1) := by
    unfold delayAfter
    rw [hs.base, hs.cap, hs.count]
  unfold Due
  rw [delays]
  rcases h with hd | ⟨ready, hr, hle⟩
  · exact Or.inl (hs.marked hd)
  · rcases hs.ready ready hr with hd | hr
    · exact Or.inl hd
    · exact Or.inr ⟨ready, hr, hle⟩

theorem addAfter_due (h : q.shuttingDown = false) (now delay : τ) (k : κ) :
    (q.addAfter now k delay).dirty.contains k = true ∨
      ∃ ready, Dictionary.get? k (q.addAfter now k delay).readyAt = some ready ∧
        (ready = now + delay ∨ atMost ready (now + delay) = true) := by
  have scheduled : ∃ ready, Dictionary.get? k (q.schedule k (now + delay)).readyAt = some ready ∧
      (ready = now + delay ∨ atMost ready (now + delay) = true) :=
    ⟨now + delay, Dictionary.get?_set_self _ _ _, Or.inl rfl⟩
  unfold addAfter
  rw [if_neg (by simp [h])]
  split
  · exact Or.inl (add_marked h k)
  · cases hr : Dictionary.get? k q.readyAt with
    | none => exact Or.inr scheduled
    | some ready =>
        dsimp only
        split
        · next hle => exact Or.inr ⟨ready, hr, Or.inr hle⟩
        · exact Or.inr scheduled

theorem addAfter_limits (now delay : τ) (k j : κ) (q : WorkQueue κ τ) :
    (q.addAfter now k delay).baseDelay = q.baseDelay ∧
      (q.addAfter now k delay).maxDelay = q.maxDelay ∧
      (q.addAfter now k delay).failureCount j = q.failureCount j := by
  have added := add_spares j k q
  unfold addAfter
  split
  · exact ⟨rfl, rfl, rfl⟩
  · split
    · exact ⟨added.base, added.cap, added.count⟩
    · split
      · split <;> exact ⟨rfl, rfl, rfl⟩
      · exact ⟨rfl, rfl, rfl⟩

theorem failureCount_addRateLimited (now : τ) (j k : κ) (q : WorkQueue κ τ) :
    (q.addRateLimited now k).failureCount j =
      if j == k then q.failureCount j + 1 else q.failureCount j := by
  rw [addRateLimited_eq, (addAfter_limits now _ k j _).2.2, failureCount_backoff]

theorem addRateLimited_due (h : q.shuttingDown = false) (now : τ) (k : κ) :
    (q.addRateLimited now k).Due k now := by
  have due := addAfter_due (q := (q.backoff k).2) h now (q.backoff k).1 k
  obtain ⟨hbase, hcap, _⟩ := addAfter_limits now (q.backoff k).1 k k (q.backoff k).2
  have delays : (q.addRateLimited now k).delayAfter ((q.addRateLimited now k).failureCount k - 1) =
      (q.backoff k).1 := by
    rw [failureCount_addRateLimited, BEq.refl, if_pos rfl, Nat.add_sub_cancel]
    unfold delayAfter
    rw [addRateLimited_eq, hbase, hcap]
    rfl
  unfold Due
  rw [delays]
  exact due

/-- `k` is marked, or has a time no later than `latest`. -/
def RetriedBy (value : τ → ℚ) (k : κ) (latest : ℚ) (q : WorkQueue κ τ) : Prop :=
  q.dirty.contains k = true ∨
    ∃ ready, Dictionary.get? k q.readyAt = some ready ∧ value ready ≤ latest

omit [EquivBEq κ] in
/-- The `n`-th failure in a row asks for a try after `min maxDelay (baseDelay * 2 ^ min (n - 1)
doublingLimit)`. -/
theorem Due.exact {value : τ → ℚ} (hv : Exact value) {asked : τ} (h : q.Due k asked) :
    q.RetriedBy value k (value asked + min (value q.maxDelay)
      (value q.baseDelay * 2 ^ min (q.failureCount k - 1) doublingLimit)) := by
  refine h.imp id fun ⟨ready, hr, hle⟩ => ⟨ready, hr, ?_⟩
  have bound : value (asked + q.delayAfter (q.failureCount k - 1)) = value asked +
      min (value q.maxDelay)
        (value q.baseDelay * 2 ^ min (q.failureCount k - 1) doublingLimit) := by
    rw [hv.add, delayAfter, hv.less, hv.doubled]
  rw [← bound]
  rcases hle with rfl | hle
  · exact le_refl _
  · exact (hv.atMost _ _).mp hle

/-! ### The invariant -/

/-- The queue, the phases of the workers and the outcomes of their tries, the latest first, go
together. -/
structure Staffed (base cap : τ) (worker : Nat → Phase κ τ) (outcomes : List (κ × Bool))
    (q : WorkQueue κ τ) : Prop where
  consistent : q.Consistent
  base : q.baseDelay = base
  cap : q.maxDelay = cap
  inHand : InHand (fun i => (worker i).key?) q
  counted : ∀ k, q.failureCount k = failuresSince k outcomes
  pending : q.shuttingDown = false → ∀ k, 0 < q.failureCount k → q.Pending k
  due : q.shuttingDown = false → ∀ i k asked, worker i = .failed k asked → q.Due k asked
  failing : ∀ i k asked, worker i = .failed k asked → 0 < q.failureCount k
  reset : ∀ i k, worker i = .succeeded k → q.failureCount k = 0

variable {base cap : τ} {worker : Nat → Phase κ τ} {outcomes : List (κ × Bool)}
  {phase : Phase κ τ}

omit [EquivBEq κ] in
theorem empty_staffed (name : String) (base cap : τ) :
    Staffed base cap (fun _ => .idle) [] (empty name base cap : WorkQueue κ τ) where
  consistent := empty_consistent name base cap
  base := rfl
  cap := rfl
  inHand := ⟨by simp [empty, Phase.key?], by simp [Phase.key?]⟩
  counted _ := rfl
  pending := by simp [empty, failureCount, Dictionary.get?]
  due := by simp
  failing := by simp
  reset := by simp

/-! ### Calls about no key in particular -/

section

variable [Inhabited κ]

omit [EquivBEq κ] in
theorem Staffed.spared (h : Staffed base cap worker outcomes q)
    (hc : q'.Consistent) (hp : q'.processing = q.processing) (hs : ∀ k, Spares k q q')
    (hd : q'.shuttingDown = false → q.shuttingDown = false) :
    Staffed base cap worker outcomes q' where
  consistent := hc
  base := (hs default).base.trans h.base
  cap := (hs default).cap.trans h.cap
  inHand := h.inHand.congr hp
  counted k := (hs k).count.trans (h.counted k)
  pending hq k hk := by
    rw [(hs k).count] at hk
    rcases h.pending (hd hq) k hk with hw | hproc
    · exact Or.inl ((hs k).waiting hw)
    · exact Or.inr (by rwa [hp])
  due hq i k asked hi := (h.due (hd hq) i k asked hi).spared (hs k)
  failing i k asked hi := by
    rw [(hs k).count]
    exact h.failing i k asked hi
  reset i k hi := (hs k).count.trans (h.reset i k hi)

theorem Staffed.adds (h : Staffed base cap worker outcomes q) (ks : List κ) :
    Staffed base cap worker outcomes (ks.foldl (fun q k => q.add k) q) :=
  h.spared (foldl_add_consistent h.consistent ks) (foldl_add_processing ks q)
    (fun k => foldl_add_spares k ks q) (by rw [foldl_add_shuttingDown]; exact id)

theorem Staffed.deliver (h : Staffed base cap worker outcomes q) (now : τ) :
    Staffed base cap worker outcomes (q.deliver now) :=
  h.spared (deliver_consistent h.consistent now) (deliver_processing now q)
    (fun k => deliver_spares k now q) (by rw [deliver_shuttingDown]; exact id)

omit [EquivBEq κ] in
theorem Staffed.shutDown (h : Staffed base cap worker outcomes q) :
    Staffed base cap worker outcomes q.shutDown :=
  h.spared (h.consistent.congr rfl rfl rfl (by simp [WorkQueue.shutDown])) rfl
    (fun _ => ⟨rfl, rfl, rfl, id, fun _ => Or.inr⟩) (by simp [WorkQueue.shutDown])

end

/-! ### Calls of a worker -/

variable {i : Nat}

omit [BEq κ] [EquivBEq κ] [TimeScale τ] in
theorem key?_update (worker : Nat → Phase κ τ) (i : Nat) (phase : Phase κ τ) :
    (fun i' => (Function.update worker i phase i').key?) =
      Function.update (fun i' => (worker i').key?) i phase.key? :=
  funext fun j => Function.apply_update (fun _ => Phase.key?) worker i phase j

omit [BEq κ] [EquivBEq κ] [TimeScale τ] in
theorem key?_update_self (h : (worker i).key? = phase.key?) :
    (fun i' => (Function.update worker i phase i').key?) = fun i' => (worker i').key? := by
  rw [key?_update, ← h]
  exact Function.update_eq_self i _

omit [EquivBEq κ] in
theorem Staffed.other (h : Staffed base cap worker outcomes q) {i' : Nat}
    (hne : i' ≠ i) (hi : (worker i).key? = some k) (hi' : (worker i').key? = some j) :
    (j == k) = false :=
  Bool.eq_false_iff.mpr fun hjk => hne (h.inHand.apart i' i j k hi' hi hjk)

theorem Staffed.take (h : Staffed base cap worker outcomes q) (hi : worker i = .idle)
    (ht : q.take = (.key k, q')) :
    Staffed base cap (Function.update worker i (.trying k)) outcomes q' := by
  have taken : q.take.2 = q' := by rw [ht]
  have limits : q'.baseDelay = q.baseDelay ∧ q'.maxDelay = q.maxDelay ∧
      q'.failures = q.failures ∧ q'.shuttingDown = q.shuttingDown := by
    obtain ⟨r, _, rfl⟩ := eq_of_take ht
    exact ⟨rfl, rfl, rfl, rfl⟩
  obtain ⟨hbase, hcap, hfailures, hdown⟩ := limits
  have count : ∀ j, q'.failureCount j = q.failureCount j := by
    intro j
    unfold failureCount
    rw [hfailures]
  refine ⟨?_, hbase.trans h.base, hcap.trans h.cap, ?_, fun j => (count j).trans (h.counted j),
    ?_, ?_, ?_, ?_⟩
  · rw [← taken]
    exact take_consistent h.consistent
  · rw [key?_update]
    exact h.inHand.take h.consistent (by rw [hi]; rfl) ht
  · intro hs j hj
    rw [count] at hj
    rw [hdown] at hs
    rw [← taken]
    exact (h.pending hs j hj).take
  · intro hs i' j asked hu
    rw [hdown] at hs
    have hw : worker i' = .failed j asked := eq_of_update_eq (by simp) hu
    have apart : (j == k) = false := h.inHand.free h.consistent ht (by rw [hw]; rfl)
    exact (h.due hs i' j asked hw).spared (take_spares apart ht)
  · intro i' j asked hu
    rw [count]
    exact h.failing i' j asked (eq_of_update_eq (by simp) hu)
  · intro i' j hu
    rw [count]
    exact h.reset i' j (eq_of_update_eq (by simp) hu)

theorem Staffed.succeed (h : Staffed base cap worker outcomes q) (hi : worker i = .trying k) :
    Staffed base cap (Function.update worker i (.succeeded k)) ((k, true) :: outcomes)
      (q.forget k) := by
  have hand : (worker i).key? = some k := by rw [hi]; rfl
  refine ⟨h.consistent.congr rfl rfl rfl id, h.base, h.cap, ?_, ?_, ?_, ?_, ?_, ?_⟩
  · rw [key?_update_self (by rw [hi]; rfl)]
    exact h.inHand.congr rfl
  · intro j
    rw [failureCount_forget, failuresSince, BEq.comm, h.counted]
    rfl
  · intro hs j hj
    rw [failureCount_forget] at hj
    split at hj
    · exact absurd hj (Nat.lt_irrefl 0)
    · exact h.pending hs j hj
  · intro hs i' j asked hu
    rcases update_eq_iff.mp hu with ⟨_, hp⟩ | ⟨hne, hw⟩
    · cases hp
    · have apart := h.other hne hand (j := j) (by rw [hw]; rfl)
      exact (h.due hs i' j asked hw).spared (forget_spares apart q)
  · intro i' j asked hu
    rcases update_eq_iff.mp hu with ⟨_, hp⟩ | ⟨hne, hw⟩
    · cases hp
    · have apart := h.other hne hand (j := j) (by rw [hw]; rfl)
      rw [(forget_spares apart q).count]
      exact h.failing i' j asked hw
  · intro i' j hu
    rw [failureCount_forget]
    split
    · rfl
    · rcases update_eq_iff.mp hu with ⟨_, hp⟩ | ⟨_, hw⟩
      · cases hp
        next hjj => exact absurd (BEq.refl k) hjj
      · exact h.reset i' j hw

theorem Staffed.fail (h : Staffed base cap worker outcomes q) (hi : worker i = .trying k)
    (now : τ) :
    Staffed base cap (Function.update worker i (.failed k now)) ((k, false) :: outcomes)
      (q.addRateLimited now k) := by
  have hand : (worker i).key? = some k := by rw [hi]; rfl
  obtain ⟨hbase, hcap, _⟩ := addAfter_limits now (q.backoff k).1 k k (q.backoff k).2
  refine ⟨addRateLimited_consistent h.consistent now k, hbase.trans h.base, hcap.trans h.cap, ?_,
    ?_, ?_, ?_, ?_, ?_⟩
  · rw [key?_update_self (by rw [hi]; rfl)]
    exact h.inHand.congr (addRateLimited_processing now k q)
  · intro j
    rw [failureCount_addRateLimited, failuresSince, BEq.comm, h.counted]
    rfl
  · intro hs j hj
    rw [addRateLimited_shuttingDown] at hs
    rw [failureCount_addRateLimited] at hj
    split at hj
    · next hjk =>
        refine Or.inr ?_
        rw [addRateLimited_processing]
        exact (h.inHand.held j).mpr ⟨i, k, hand, BEq.symm hjk⟩
    · exact (h.pending hs j hj).addRateLimited now k
  · intro hs i' j asked hu
    rw [addRateLimited_shuttingDown] at hs
    rcases update_eq_iff.mp hu with ⟨_, hp⟩ | ⟨hne, hw⟩
    · cases hp
      exact addRateLimited_due hs now k
    · have apart := h.other hne hand (j := j) (by rw [hw]; rfl)
      exact (h.due hs i' j asked hw).spared (addRateLimited_spares apart now q)
  · intro i' j asked hu
    rw [failureCount_addRateLimited]
    split
    · exact Nat.succ_pos _
    · next hjk =>
        rcases update_eq_iff.mp hu with ⟨_, hp⟩ | ⟨_, hw⟩
        · cases hp
          exact absurd (BEq.refl k) hjk
        · exact h.failing i' j asked hw
  · intro i' j hu
    rcases update_eq_iff.mp hu with ⟨_, hp⟩ | ⟨hne, hw⟩
    · cases hp
    · have apart := h.other hne hand (j := j) (by rw [hw]; rfl)
      rw [failureCount_addRateLimited, apart]
      exact h.reset i' j hw

theorem Staffed.release (h : Staffed base cap worker outcomes q)
    (hi : (∃ asked, worker i = .failed k asked) ∨ worker i = .succeeded k) :
    Staffed base cap (Function.update worker i .idle) outcomes (q.release k) := by
  have hand : (worker i).key? = some k := by
    rcases hi with ⟨_, hi⟩ | hi <;> rw [hi] <;> rfl
  have busy : q.processing.contains k = true :=
    (h.inHand.held k).mpr ⟨i, k, hand, BEq.refl k⟩
  have spares := fun j => release_spares j k q
  refine ⟨release_consistent h.consistent busy, (spares k).base.trans h.base,
    (spares k).cap.trans h.cap, ?_, fun j => (spares j).count.trans (h.counted j), ?_, ?_, ?_,
    ?_⟩
  · rw [key?_update]
    exact h.inHand.release hand
  · intro hs j hj
    rw [(spares j).count] at hj
    rw [release_shuttingDown] at hs
    cases hjk : j == k with
    | false => exact (h.pending hs j hj).release hjk
    | true =>
        rw [failureCount_congr hjk] at hj
        rcases hi with ⟨asked, hi⟩ | hi
        · have waits := (spares k).waiting (h.due hs i k asked hi).waiting
          exact Or.inl (waits.congr (BEq.symm hjk))
        · rw [h.reset i k hi] at hj
          exact absurd hj (Nat.lt_irrefl 0)
  · intro hs i' j asked hu
    rw [release_shuttingDown] at hs
    exact (h.due hs i' j asked (eq_of_update_eq (by simp) hu)).spared (spares j)
  · intro i' j asked hu
    rw [(spares j).count]
    exact h.failing i' j asked (eq_of_update_eq (by simp) hu)
  · intro i' j hu
    rw [(spares j).count]
    exact h.reset i' j (eq_of_update_eq (by simp) hu)

end WorkQueue

end QuotaWarden
