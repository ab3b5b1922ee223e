import QuotaWarden.WorkQueue
import Mathlib.Data.List.Infix

/-! # Runs of the work queue

Any number of workers call one queue in any order. Each call holds the lock, so a run is a sequence
of calls; what it did to keys is its history of `Event`s, oldest first.

* `Run` is a run from the empty queue. A worker asks for a key only where this does not block, and
  releases only a key that is `Held`: handed out, and not released since.
* `Consistent` ties the queue, the marks and the keys in the workers' hands together. Each call
  keeps it (`add_consistent`, `take_consistent`, `release_consistent`).
* `Accounted` reads marks and held keys off the history: a key is marked as long as it is `Owed`, by
  an add that no handing out has followed (`Run.accounted`).

`run_invariant` collects what holds in every state that a run reaches. -/

namespace QuotaWarden.WorkQueue

open TimeScale

variable {κ τ : Type}

/-! ### Calls and what they do -/

/-- A call of the queue. -/
inductive Call (κ τ : Type) where
  | add (k : κ)
  | take
  | release (k : κ)
  | forget (k : κ)
  | backoff (k : κ)
  | addRateLimited (now : τ) (k : κ)
  | addAfter (now : τ) (k : κ) (delay : τ)
  | deliver (now : τ)
  | shutDown

/-- What happens to a key. An add counts only before the shutdown. -/
inductive Event (κ : Type) where
  | added (k : κ)
  | taken (k : κ)
  | released (k : κ)
deriving DecidableEq, Repr

namespace Event

variable [BEq κ]

def adds (k : κ) : Event κ → Bool
  | added j => j == k
  | _ => false

def takes (k : κ) : Event κ → Bool
  | taken j => j == k
  | _ => false

def releases (k : κ) : Event κ → Bool
  | released j => j == k
  | _ => false

end Event

/-- The keys that a pass of the delivering loop adds. -/
def due [BEq κ] [TimeScale τ] (now : τ) (q : WorkQueue κ τ) : List κ :=
  (collectDue (q.waiting.takeWhile fun d => atMost d.ready now) q.readyAt).1

/-- The queue after its due keys have left the list of those that wait. -/
def withoutDue [BEq κ] [TimeScale τ] (now : τ) (q : WorkQueue κ τ) : WorkQueue κ τ :=
  { q with
    waiting := q.waiting.dropWhile fun d => atMost d.ready now
    readyAt := (collectDue (q.waiting.takeWhile fun d => atMost d.ready now) q.readyAt).2 }

namespace Call

variable [BEq κ] [TimeScale τ]

/-- The queue after a call. -/
def run : Call κ τ → WorkQueue κ τ → WorkQueue κ τ
  | add k, q => q.add k
  | take, q => q.take.2
  | release k, q => q.release k
  | forget k, q => q.forget k
  | backoff k, q => (q.backoff k).2
  | addRateLimited now k, q => q.addRateLimited now k
  | addAfter now k delay, q => q.addAfter now k delay
  | deliver now, q => q.deliver now
  | shutDown, q => q.shutDown

/-- What an add of keys amounts to in a queue. -/
def addsOf (ks : List κ) (q : WorkQueue κ τ) : List (Event κ) :=
  if q.shuttingDown then [] else ks.map .added

/-- The keys that a call adds at once. -/
def added : Call κ τ → WorkQueue κ τ → List κ
  | add k, _ => [k]
  | addRateLimited _ k, q => if atMost (q.backoff k).1 0 then [k] else []
  | addAfter _ k delay, _ => if atMost delay 0 then [k] else []
  | deliver now, q => q.due now
  | _, _ => []

/-- The events of a call. -/
def events (c : Call κ τ) (q : WorkQueue κ τ) : List (Event κ) :=
  match c with
  | take =>
    match q.take.1 with
    | .key k => [.taken k]
    | _ => []
  | release k => [.released k]
  | c => addsOf (c.added q) q

end Call

/-! ### Histories -/

section histories

variable [BEq κ]

/-- An event of one sort has happened, and none of another sort since. -/
def Since (p r : Event κ → Bool) (h : List (Event κ)) : Prop :=
  ∃ a e b, h = a ++ e :: b ∧ p e = true ∧ ∀ x ∈ b, r x = false

/-- A key was added and has not been handed out since. -/
def Owed (k : κ) : List (Event κ) → Prop := Since (Event.adds k) (Event.takes k)

/-- A key was handed out and has not been released since. -/
def Held (k : κ) : List (Event κ) → Prop := Since (Event.takes k) (Event.releases k)

omit [BEq κ] in
theorem not_since_nil (p r : Event κ → Bool) : ¬ Since p r [] := by
  rintro ⟨a, e, b, h, _⟩
  exact absurd h (by simp)

omit [BEq κ] in
theorem since_concat_iff {p r : Event κ → Bool} {h : List (Event κ)} {e : Event κ} :
    Since p r (h ++ [e]) ↔ p e = true ∨ (Since p r h ∧ r e = false) := by
  constructor
  · rintro ⟨a, x, b, hs, hp, hb⟩
    rcases List.eq_nil_or_concat b with rfl | ⟨b', y, rfl⟩
    · obtain ⟨_, hx⟩ := List.append_inj' hs rfl
      rw [List.singleton_inj.mp hx]
      exact Or.inl hp
    · have hs' : h ++ [e] = (a ++ x :: b') ++ [y] := by simpa using hs
      obtain ⟨hh, hy⟩ := List.append_inj' hs' rfl
      rw [List.singleton_inj.mp hy]
      exact Or.inr ⟨⟨a, x, b', hh, hp, fun z hz => hb z (by simp [hz])⟩, hb y (by simp)⟩
  · rintro (hp | ⟨⟨a, x, b, rfl, hp, hb⟩, hr⟩)
    · exact ⟨h, e, [], rfl, hp, by simp⟩
    · refine ⟨a, x, b ++ [e], by simp, hp, ?_⟩
      intro z hz
      rcases List.mem_append.mp hz with hz | hz
      · exact hb z hz
      · rw [List.mem_singleton.mp hz]
        exact hr

theorem owed_concat_added (k j : κ) (h : List (Event κ)) :
    Owed k (h ++ [.added j]) ↔ (j == k) = true ∨ Owed k h := by
  simp [Owed, since_concat_iff, Event.adds, Event.takes]

theorem owed_concat_taken (k j : κ) (h : List (Event κ)) :
    Owed k (h ++ [.taken j]) ↔ Owed k h ∧ (j == k) = false := by
  simp [Owed, since_concat_iff, Event.adds, Event.takes]

theorem owed_concat_released (k j : κ) (h : List (Event κ)) :
    Owed k (h ++ [.released j]) ↔ Owed k h := by
  simp [Owed, since_concat_iff, Event.adds, Event.takes]

theorem held_concat_added (k j : κ) (h : List (Event κ)) :
    Held k (h ++ [.added j]) ↔ Held k h := by
  simp [Held, since_concat_iff, Event.takes, Event.releases]

theorem held_concat_taken (k j : κ) (h : List (Event κ)) :
    Held k (h ++ [.taken j]) ↔ (j == k) = true ∨ Held k h := by
  simp [Held, since_concat_iff, Event.takes, Event.releases]

theorem held_concat_released (k j : κ) (h : List (Event κ)) :
    Held k (h ++ [.released j]) ↔ Held k h ∧ (j == k) = false := by
  simp [Held, since_concat_iff, Event.takes, Event.releases]

end histories

/-! ### Single calls -/

section calls

variable [BEq κ] (q : WorkQueue κ τ)

theorem add_cases (k : κ) :
    (q.shuttingDown = true ∨ q.dirty.contains k = true) ∧ q.add k = q ∨
    q.dirty.contains k = false ∧ q.processing.contains k = true ∧
      q.add k = { q with dirty := insertKey k q.dirty } ∨
    q.dirty.contains k = false ∧ q.processing.contains k = false ∧
      q.add k = { q with dirty := insertKey k q.dirty, queue := q.queue ++ [k] } := by
  by_cases hs : (q.shuttingDown || q.dirty.contains k) = true
  · refine Or.inl ⟨by simpa using hs, ?_⟩
    rw [add, if_pos hs]
  · have hd : q.dirty.contains k = false := by
      rw [Bool.or_eq_true, not_or] at hs
      exact Bool.eq_false_iff.mpr hs.2
    by_cases hp : q.processing.contains k = true
    · refine Or.inr (Or.inl ⟨hd, hp, ?_⟩)
      rw [add, if_neg hs, if_pos hp]
    · refine Or.inr (Or.inr ⟨hd, Bool.eq_false_iff.mpr hp, ?_⟩)
      rw [add, if_neg hs, if_neg hp]

theorem take_cases :
    (∀ k, q.take.1 ≠ .key k) ∧ q.take.2 = q ∨
    ∃ k r, q.shuttingDown = false ∧ q.queue = k :: r ∧ q.take =
      (.key k,
        { q with
          queue := r
          processing := insertKey k q.processing
          dirty := removeKey k q.dirty }) := by
  unfold take
  by_cases hs : q.shuttingDown = true
  · exact Or.inl (by simp [hs])
  · cases hq : q.queue with
    | nil => exact Or.inl (by simp [hs])
    | cons k r => exact Or.inr ⟨k, r, by simpa using hs, rfl, by simp [hs]⟩

theorem release_cases (k : κ) :
    (q.dirty.contains k = false ∨ q.shuttingDown = true) ∧
      q.release k = { q with processing := removeKey k q.processing } ∨
    q.dirty.contains k = true ∧ q.release k =
      { q with processing := removeKey k q.processing, queue := q.queue ++ [k] } := by
  by_cases hc : (q.dirty.contains k && !q.shuttingDown) = true
  · refine Or.inr ⟨by simp only [Bool.and_eq_true] at hc; exact hc.1, ?_⟩
    simp only [release]
    rw [if_pos hc]
  · refine Or.inl ⟨?_, ?_⟩
    · cases hd : q.dirty.contains k with
      | false => exact Or.inl rfl
      | true => exact Or.inr (by simpa [hd] using hc)
    · simp only [release]
      rw [if_neg hc]

theorem add_shuttingDown (k : κ) : (q.add k).shuttingDown = q.shuttingDown := by
  rcases q.add_cases k with ⟨_, e⟩ | ⟨_, _, e⟩ | ⟨_, _, e⟩ <;> rw [e]

theorem add_processing (k : κ) : (q.add k).processing = q.processing := by
  rcases q.add_cases k with ⟨_, e⟩ | ⟨_, _, e⟩ | ⟨_, _, e⟩ <;> rw [e]

theorem add_of_shuttingDown {q : WorkQueue κ τ} (h : q.shuttingDown = true) (k : κ) :
    q.add k = q := by
  rw [add, if_pos (by simp [h])]

theorem take_of_shuttingDown {q : WorkQueue κ τ} (h : q.shuttingDown = true) :
    q.take = (.shutDown, q) := if_pos h

theorem release_of_shuttingDown {q : WorkQueue κ τ} (h : q.shuttingDown = true) (k : κ) :
    q.release k = { q with processing := removeKey k q.processing } := by
  simp [release, h]

variable [TimeScale τ]

theorem addAfter_of_shuttingDown {q : WorkQueue κ τ} (h : q.shuttingDown = true) (now : τ) (k : κ)
    (delay : τ) : q.addAfter now k delay = q := if_pos h

theorem deliver_of_shuttingDown {q : WorkQueue κ τ} (h : q.shuttingDown = true) (now : τ) :
    q.deliver now = q := if_pos h

/-- `addAfter` is `add` without a delay, and else leaves the queue and the marks as they are. -/
theorem addAfter_cases (now : τ) (k : κ) (delay : τ) :
    atMost delay 0 = true ∧ q.addAfter now k delay = q.add k ∨
    atMost delay 0 = false ∧ (q.addAfter now k delay).queue = q.queue ∧
      (q.addAfter now k delay).dirty = q.dirty ∧
      (q.addAfter now k delay).processing = q.processing ∧
      (q.addAfter now k delay).shuttingDown = q.shuttingDown := by
  unfold addAfter
  by_cases hs : q.shuttingDown = true
  · rw [if_pos hs, add_of_shuttingDown hs]
    cases atMost delay 0 <;> simp
  · rw [if_neg hs]
    by_cases hd : atMost delay 0 = true
    · exact Or.inl ⟨hd, if_pos hd⟩
    · refine Or.inr ⟨by simpa using hd, ?_⟩
      rw [if_neg hd]
      cases Dictionary.get? k q.readyAt with
      | none => exact ⟨rfl, rfl, rfl, rfl⟩
      | some ready =>
          cases hr : atMost ready (now + delay) with
          | true => simp [hr]
          | false => simp [hr, schedule]

theorem deliver_eq (now : τ) (h : q.shuttingDown = false) :
    q.deliver now = (q.due now).foldl (fun q k => q.add k) (q.withoutDue now) := by
  rw [deliver, if_neg (by simp [h])]
  rfl

end calls

/-! ### Consistency -/

section consistency

variable [BEq κ] {q : WorkQueue κ τ}

/-- How the queue, the marks and the keys in hand go together. -/
structure Consistent (q : WorkQueue κ τ) : Prop where
  distinct : q.queue.Pairwise fun i j => (i == j) = false
  idle : ∀ k, q.queue.contains k = true → q.processing.contains k = false
  marked : ∀ k, q.queue.contains k = true → q.dirty.contains k = true
  covered : q.shuttingDown = false → ∀ k, q.dirty.contains k = true →
    q.queue.contains k = true ∨ q.processing.contains k = true

theorem empty_consistent (name : String) (base cap : τ) :
    (empty name base cap : WorkQueue κ τ).Consistent :=
  ⟨List.Pairwise.nil, by simp [empty], by simp [empty], by simp [empty]⟩

/-- `Consistent` only reads `queue`, `dirty`, `processing` and `shuttingDown`. -/
theorem Consistent.congr {r : WorkQueue κ τ} (h : q.Consistent) (hq : r.queue = q.queue)
    (hd : r.dirty = q.dirty) (hp : r.processing = q.processing)
    (hs : r.shuttingDown = false → q.shuttingDown = false) : r.Consistent := by
  refine ⟨?_, ?_, ?_, ?_⟩
  · rw [hq]; exact h.distinct
  · rw [hq, hp]; exact h.idle
  · rw [hq, hd]; exact h.marked
  · rw [hq, hd, hp]
    intro hr
    exact h.covered (hs hr)

theorem contains_append_singleton (j k : κ) (ks : List κ) :
    (ks ++ [k]).contains j = true ↔ ks.contains j = true ∨ (j == k) = true := by
  simp

variable [EquivBEq κ]

theorem pairwise_append_singleton {k : κ} {ks : List κ}
    (h : ks.Pairwise fun i j => (i == j) = false) (hk : ks.contains k = false) :
    (ks ++ [k]).Pairwise fun i j => (i == j) = false := by
  refine List.pairwise_append.mpr ⟨h, List.pairwise_singleton _ _, ?_⟩
  intro i hi j hj
  rw [List.mem_singleton.mp hj]
  by_contra hik
  have : ks.contains k = true :=
    List.contains_iff_exists_mem_beq.mpr ⟨i, hi, BEq.symm (by simpa using hik)⟩
  rw [hk] at this
  exact absurd this (by decide)

theorem add_consistent (h : q.Consistent) (k : κ) : (q.add k).Consistent := by
  rcases q.add_cases k with ⟨_, e⟩ | ⟨_, hp, e⟩ | ⟨hd, hp, e⟩
  · rw [e]; exact h
  · rw [e]
    refine ⟨h.distinct, h.idle, ?_, ?_⟩
    · intro j hj
      simp [contains_insertKey, h.marked j hj]
    · intro hs j hj
      rw [contains_insertKey, Bool.or_eq_true] at hj
      rcases hj with hj | hj
      · exact Or.inr (by rw [List.contains_congr hj]; exact hp)
      · exact h.covered hs j hj
  · have hq : q.queue.contains k = false := by
      by_contra hc
      have := h.marked k (by simpa using hc)
      rw [hd] at this
      exact absurd this (by decide)
    rw [e]
    refine ⟨pairwise_append_singleton h.distinct hq, ?_, ?_, ?_⟩
    · intro j hj
      rcases (contains_append_singleton j k _).mp hj with hj | hj
      · exact h.idle j hj
      · rw [List.contains_congr hj]; exact hp
    · intro j hj
      rw [contains_insertKey, Bool.or_eq_true]
      rcases (contains_append_singleton j k _).mp hj with hj | hj
      · exact Or.inr (h.marked j hj)
      · exact Or.inl hj
    · intro hs j hj
      rw [contains_insertKey, Bool.or_eq_true] at hj
      rcases hj with hj | hj
      · exact Or.inl ((contains_append_singleton j k _).mpr (Or.inr hj))
      · rcases h.covered hs j hj with hq | hp
        · exact Or.inl ((contains_append_singleton j k _).mpr (Or.inl hq))
        · exact Or.inr hp

theorem take_consistent (h : q.Consistent) : q.take.2.Consistent := by
  rcases q.take_cases with ⟨_, e⟩ | ⟨k, r, _, hq, e⟩
  · rw [e]; exact h
  · have hd := h.distinct
    rw [hq, List.pairwise_cons] at hd
    have hne : ∀ j, r.contains j = true → (j == k) = false := by
      intro j hj
      obtain ⟨i, hi, hji⟩ := List.contains_iff_exists_mem_beq.mp hj
      rw [BEq.congr_left hji, BEq.comm]
      exact hd.1 i hi
    rw [e]
    refine ⟨hd.2, ?_, ?_, ?_⟩
    · intro j hj
      have := h.idle j (by simp [hq, hj])
      simp [contains_insertKey, hne j hj, this]
    · intro j hj
      have := h.marked j (by simp [hq, hj])
      simp [contains_removeKey, hne j hj, this]
    · intro hs j hj
      rw [contains_removeKey, Bool.and_eq_true, Bool.not_eq_true'] at hj
      rcases h.covered hs j hj.2 with hc | hc
      · rw [hq, List.contains_cons, Bool.or_eq_true] at hc
        rcases hc with hc | hc
        · rw [hj.1] at hc
          exact absurd hc (by decide)
        · exact Or.inl hc
      · exact Or.inr (by simp [contains_insertKey, hc])

theorem release_consistent (h : q.Consistent) {k : κ} (hk : q.processing.contains k = true) :
    (q.release k).Consistent := by
  have idle : ∀ j, (j == k) = false → q.queue.contains j = true →
      (removeKey k q.processing).contains j = false := by
    intro j _ hj
    simp [contains_removeKey, h.idle j hj]
  have hq : q.queue.contains k = false := by
    by_contra hc
    have := h.idle k (by simpa using hc)
    rw [hk] at this
    exact absurd this (by decide)
  have hne : ∀ j, q.queue.contains j = true → (j == k) = false := by
    intro j hj
    by_contra hjk
    rw [List.contains_congr (by simpa using hjk), hq] at hj
    exact absurd hj (by decide)
  rcases q.release_cases k with ⟨hd, e⟩ | ⟨hd, e⟩
  · rw [e]
    refine ⟨h.distinct, fun j hj => idle j (hne j hj) hj, h.marked, ?_⟩
    intro hs j hj
    have hjk : (j == k) = false := by
      by_contra hjk
      rcases hd with hd | hd
      · rw [List.contains_congr (by simpa using hjk), hd] at hj
        exact absurd hj (by decide)
      · exact absurd hd (by simpa using hs)
    rcases h.covered hs j hj with hc | hc
    · exact Or.inl hc
    · exact Or.inr (by simp [contains_removeKey, hjk, hc])
  · rw [e]
    refine ⟨pairwise_append_singleton h.distinct hq, ?_, ?_, ?_⟩
    · intro j hj
      rcases (contains_append_singleton j k _).mp hj with hj | hj
      · exact idle j (hne j hj) hj
      · simp [contains_removeKey, hj]
    · intro j hj
      rcases (contains_append_singleton j k _).mp hj with hj | hj
      · exact h.marked j hj
      · rw [List.contains_congr hj]; exact hd
    · intro hs j hj
      by_cases hjk : (j == k) = true
      · exact Or.inl ((contains_append_singleton j k _).mpr (Or.inr hjk))
      · rcases h.covered hs j hj with hc | hc
        · exact Or.inl ((contains_append_singleton j k _).mpr (Or.inl hc))
        · exact Or.inr (by simp [contains_removeKey, hc, hjk])

end consistency

/-! ### Accounts -/

section accounts

variable [BEq κ] {h : List (Event κ)} {q : WorkQueue κ τ}

/-- A queue as its history tells of it. -/
structure Accounted (h : List (Event κ)) (q : WorkQueue κ τ) : Prop where
  consistent : q.Consistent
  held : ∀ k, q.processing.contains k = true ↔ Held k h
  owed : ∀ k, q.dirty.contains k = true ↔ Owed k h
  flight : ∀ a k, a ++ [.taken k] <+: h → ¬ Held k a

theorem Accounted.congr {r : WorkQueue κ τ} (hi : Accounted h q) (hq : r.queue = q.queue)
    (hd : r.dirty = q.dirty) (hp : r.processing = q.processing)
    (hs : r.shuttingDown = false → q.shuttingDown = false) : Accounted h r :=
  ⟨hi.consistent.congr hq hd hp hs, by rw [hp]; exact hi.held, by rw [hd]; exact hi.owed, hi.flight⟩

theorem flight_concat {e : Event κ} (hf : ∀ a k, a ++ [.taken k] <+: h → ¬ Held k a)
    (he : ∀ k, e = .taken k → ¬ Held k h) : ∀ a k, a ++ [.taken k] <+: h ++ [e] → ¬ Held k a := by
  intro a k ha
  rcases List.prefix_concat_iff.mp ha with ha | ha
  · obtain ⟨rfl, hk⟩ := List.append_inj' ha rfl
    exact he k (List.singleton_inj.mp hk).symm
  · exact hf a k ha

theorem empty_accounted (name : String) (base cap : τ) :
    Accounted ([] : List (Event κ)) (empty name base cap) := by
  refine ⟨empty_consistent name base cap, ?_, ?_, ?_⟩
  · intro k
    simp [empty, Held, not_since_nil]
  · intro k
    simp [empty, Owed, not_since_nil]
  · intro a k ha
    simp at ha

variable [EquivBEq κ]

theorem accounted_add (hi : Accounted h q) (hs : q.shuttingDown = false) (k : κ) :
    Accounted (h ++ [.added k]) (q.add k) := by
  have hdirty : ∀ j, (q.add k).dirty.contains j = true ↔
      (k == j) = true ∨ q.dirty.contains j = true := by
    intro j
    rcases q.add_cases k with ⟨hc, e⟩ | ⟨_, _, e⟩ | ⟨_, _, e⟩
    · rw [e]
      constructor
      · exact Or.inr
      · rintro (hj | hj)
        · rcases hc with hc | hc
          · rw [hs] at hc; exact absurd hc (by decide)
          · rwa [List.contains_congr (BEq.symm hj)]
        · exact hj
    · rw [e, contains_insertKey, Bool.or_eq_true, BEq.comm]
    · rw [e, contains_insertKey, Bool.or_eq_true, BEq.comm]
  refine ⟨add_consistent hi.consistent k, ?_, ?_, flight_concat hi.flight (by simp)⟩
  · intro j
    rw [add_processing, held_concat_added, hi.held j]
  · intro j
    rw [hdirty j, owed_concat_added, hi.owed j]

/-- The account after adds, by induction on the keys. -/
theorem accounted_adds (hi : Accounted h q) (ks : List κ) :
    Accounted (h ++ Call.addsOf ks q) (ks.foldl (fun q k => q.add k) q) := by
  induction ks generalizing h q with
  | nil => simpa [Call.addsOf] using hi
  | cons k ks ih =>
      cases hs : q.shuttingDown with
      | true =>
          have := ih hi
          rw [List.foldl_cons, add_of_shuttingDown hs]
          simpa [Call.addsOf, hs] using this
      | false =>
          have := ih (accounted_add hi hs k)
          simpa [Call.addsOf, add_shuttingDown, hs] using this

theorem accounted_take (hi : Accounted h q) {k : κ} (hk : q.take.1 = .key k) :
    Accounted (h ++ [.taken k]) q.take.2 := by
  have hcons := take_consistent hi.consistent
  rcases q.take_cases with ⟨hn, _⟩ | ⟨j, r, _, hq, e⟩
  · exact absurd hk (hn k)
  · rw [e] at hk hcons ⊢
    obtain rfl : j = k := by simpa using hk
    have hfree : ¬ Held j h := by
      rw [← hi.held j, hi.consistent.idle j (by simp [hq])]
      decide
    refine ⟨hcons, ?_, ?_, flight_concat hi.flight ?_⟩
    · intro i
      rw [held_concat_taken, contains_insertKey, Bool.or_eq_true, hi.held i, BEq.comm]
    · intro i
      rw [owed_concat_taken, contains_removeKey, Bool.and_eq_true, Bool.not_eq_true', hi.owed i,
        BEq.comm, and_comm]
    · intro i hji
      obtain rfl : j = i := by simpa using hji
      exact hfree

theorem accounted_release (hi : Accounted h q) {k : κ} (hk : Held k h) :
    Accounted (h ++ [.released k]) (q.release k) := by
  have hcons := release_consistent hi.consistent ((hi.held k).mpr hk)
  have hproc : (q.release k).processing = removeKey k q.processing := by
    rcases q.release_cases k with ⟨_, e⟩ | ⟨_, e⟩ <;> rw [e]
  have hdirty : (q.release k).dirty = q.dirty := by
    rcases q.release_cases k with ⟨_, e⟩ | ⟨_, e⟩ <;> rw [e]
  refine ⟨hcons, ?_, ?_, flight_concat hi.flight (by simp)⟩
  · intro j
    rw [hproc, held_concat_released, contains_removeKey, Bool.and_eq_true, Bool.not_eq_true',
      hi.held j, BEq.comm, and_comm]
  · intro j
    rw [hdirty, owed_concat_released, hi.owed j]

end accounts

/-! ### Runs -/

section runs

variable [BEq κ] [TimeScale τ]

/-- Where a call may be made: a key is asked for where that does not block, and a key is released
while it is held. -/
def Call.Allowed (c : Call κ τ) (h : List (Event κ)) (q : WorkQueue κ τ) : Prop :=
  match c with
  | .take => q.take.1 ≠ .nothing
  | .release k => Held k h
  | _ => True

/-- A run from the empty queue, with its history and the queue that it reaches. -/
inductive Run (name : String) (base cap : τ) : List (Event κ) → WorkQueue κ τ → Prop
  | start : Run name base cap [] (empty name base cap)
  | call {h : List (Event κ)} {q : WorkQueue κ τ} (c : Call κ τ) :
      Run name base cap h q → c.Allowed h q → Run name base cap (h ++ c.events q) (c.run q)

variable [EquivBEq κ] {h : List (Event κ)} {q : WorkQueue κ τ}

theorem accounted_run (hi : Accounted h q) (c : Call κ τ) (hc : c.Allowed h q) :
    Accounted (h ++ c.events q) (c.run q) := by
  have later : ∀ {q : WorkQueue κ τ} (hi : Accounted h q) (now : τ) (k : κ) (delay : τ),
      Accounted (h ++ Call.addsOf (if atMost delay 0 then [k] else []) q)
        (q.addAfter now k delay) := by
    intro q hi now k delay
    rcases q.addAfter_cases now k delay with ⟨hd, e⟩ | ⟨hd, hq, hdirty, hp, hs⟩
    · rw [e, if_pos hd]
      exact accounted_adds hi [k]
    · rw [if_neg (by simp [hd])]
      simpa [Call.addsOf] using hi.congr hq hdirty hp (by rw [hs]; exact id)
  cases c with
  | add k => exact accounted_adds hi [k]
  | take =>
      cases ht : q.take.1 with
      | key k => simpa [Call.events, Call.run, ht] using accounted_take hi ht
      | nothing => exact absurd ht hc
      | shutDown =>
          rcases q.take_cases with ⟨_, e⟩ | ⟨k, r, _, _, e⟩
          · simpa [Call.events, Call.run, ht, e] using hi
          · rw [e] at ht
            exact absurd ht (by simp)
  | release k => exact accounted_release hi hc
  | forget k =>
      simpa [Call.events, Call.added, Call.addsOf, Call.run] using
        hi.congr (r := q.forget k) rfl rfl rfl id
  | backoff k =>
      simpa [Call.events, Call.added, Call.addsOf, Call.run] using
        hi.congr (r := (q.backoff k).2) rfl rfl rfl id
  | addRateLimited now k =>
      exact later (hi.congr (r := (q.backoff k).2) rfl rfl rfl id) now k (q.backoff k).1
  | addAfter now k delay => exact later hi now k delay
  | deliver now =>
      cases hs : q.shuttingDown with
      | true =>
          simpa [Call.events, Call.addsOf, Call.run, hs, deliver_of_shuttingDown hs now] using hi
      | false =>
          simp only [Call.run, q.deliver_eq now hs]
          exact accounted_adds (q := q.withoutDue now) (hi.congr rfl rfl rfl id) (q.due now)
  | shutDown =>
      simpa [Call.events, Call.added, Call.addsOf, Call.run] using
        hi.congr (r := q.shutDown) rfl rfl rfl (by simp [WorkQueue.shutDown])

theorem Run.accounted {name : String} {base cap : τ} (run : Run name base cap h q) :
    Accounted h q := by
  induction run with
  | start => exact empty_accounted name base cap
  | call c _ hc ih => exact accounted_run ih c hc

/-- **Every run keeps the queue consistent, hands no key to two workers and loses no add.** Between
the handing out of a key and the next one lies its release. A key is in hand exactly as long as it
is held, and marked exactly as long as it is owed; until the shutdown it is then queued, or in hand
and queued by its release. -/
theorem run_invariant {name : String} {base cap : τ} (run : Run name base cap h q) :
    q.Consistent ∧
      (∀ a i b j c, h = a ++ .taken i :: (b ++ .taken j :: c) → (i == j) = true →
        ∃ l, .released l ∈ b ∧ (l == i) = true) ∧
      (∀ k, q.processing.contains k = true ↔ Held k h) ∧
      (∀ k, q.dirty.contains k = true ↔ Owed k h) ∧
      (q.shuttingDown = false → ∀ k, Owed k h → q.queue.contains k = true ∨
        q.processing.contains k = true ∧ (q.release k).queue.contains k = true) := by
  have acc := run.accounted
  refine ⟨acc.consistent, ?_, acc.held, acc.owed, ?_⟩
  · intro a i b j c hh hij
    by_contra hb
    have hfree : ¬ Held j (a ++ .taken i :: b) := acc.flight _ j ⟨c, by simp [hh]⟩
    refine hfree ⟨a, .taken i, b, rfl, hij, ?_⟩
    intro x hx
    cases x with
    | added l => rfl
    | taken l => rfl
    | released l =>
        refine Bool.eq_false_iff.mpr fun hl => hb ⟨l, hx, ?_⟩
        exact BEq.trans hl (BEq.symm hij)
  · intro hs k hk
    have hd := (acc.owed k).mpr hk
    rcases acc.consistent.covered hs k hd with hq | hp
    · exact Or.inl hq
    · refine Or.inr ⟨hp, ?_⟩
      rcases q.release_cases k with ⟨hc, _⟩ | ⟨_, e⟩
      · rw [hd, hs] at hc
        simp at hc
      · rw [e]
        simp

/-- Two workers hold two keys, and one of the keys is added again: it is owed, and its release
queues it. -/
theorem run_invariant_two_workers :
    let q : WorkQueue String Float :=
      ((((empty "" 0 0).add "a").add "b").take.2.take.2.add "a").release "b"
    let h := [.added "a", .added "b", .taken "a", .taken "b", .added "a", .released "b"]
    Run "" 0 0 h q ∧ q.Consistent ∧ Held "a" h ∧ Owed "a" h ∧ q.queue = [] ∧
      (q.release "a").queue.contains "a" = true := by
  intro q h
  have held : Held "b" [.added "a", .added "b", .taken "a", .taken "b", .added "a"] :=
    ⟨[.added "a", .added "b", .taken "a"], .taken "b", [.added "a"], rfl, by decide, by decide⟩
  have run : Run "" 0 0 h q := by
    let added : WorkQueue String Float := ((empty "" 0 0).add "a").add "b"
    have both : Run "" 0 0 [.added "a", .added "b"] added :=
      .call (.add "b") (.call (.add "a") .start trivial) trivial
    have taken := Run.call .take (.call .take both nofun) nofun
    exact .call (.release "b") (.call (.add "a") taken trivial) held
  obtain ⟨consistent, _, inHand, marked, owed⟩ := run_invariant run
  have ha : Owed "a" h := (marked "a").mp rfl
  refine ⟨run, consistent, (inHand "a").mp rfl, ha, rfl, ?_⟩
  rcases owed rfl "a" ha with hq | hp
  · exact absurd hq (by decide)
  · exact hp.2

end runs

end QuotaWarden.WorkQueue
