import QuotaWarden.Proofs.QueueRuns

/-! # Keys that the queue still owes

A key is `Waiting` if it is marked or has a time at which it is due, and `Pending` if it is waiting
or in the hands of a worker. Before the shutdown no call of the queue loses a key: adding, handing
out, delaying and delivering keep every pending key pending, and only a release of a key that is not
waiting ends its being so. -/

namespace QuotaWarden.WorkQueue

open TimeScale

variable {κ τ : Type} [BEq κ]

/-- A key is marked or delayed. -/
def Waiting (k : κ) (q : WorkQueue κ τ) : Prop :=
  q.dirty.contains k = true ∨ Dictionary.has k q.readyAt = true

/-- A key is marked, delayed or in the hands of a worker. -/
def Pending (k : κ) (q : WorkQueue κ τ) : Prop := q.Waiting k ∨ q.processing.contains k = true

/-- Nothing is marked, delayed or in the hands of a worker. -/
def Drained (q : WorkQueue κ τ) : Prop := q.dirty = [] ∧ q.readyAt = [] ∧ q.processing = []

theorem Drained.not_pending {q : WorkQueue κ τ} (h : q.Drained) (k : κ) : ¬ q.Pending k := by
  obtain ⟨hd, hr, hp⟩ := h
  simp [Pending, Waiting, hd, hr, hp, Dictionary.has, Dictionary.get?]

variable [EquivBEq κ] {q : WorkQueue κ τ} {j : κ}

theorem Waiting.congr {k : κ} (h : q.Waiting j) (hjk : (j == k) = true) : q.Waiting k := by
  unfold Waiting Dictionary.has at h ⊢
  rwa [← List.contains_congr hjk, ← Dictionary.get?_congr hjk]

/-! ### Adding -/

theorem add_marked (h : q.shuttingDown = false) (k : κ) :
    (q.add k).dirty.contains k = true := by
  rcases q.add_cases k with ⟨hs | hd, e⟩ | ⟨_, _, e⟩ | ⟨_, _, e⟩
  · rw [h] at hs
    exact absurd hs Bool.false_ne_true
  · rwa [e]
  · rw [e]
    simp [contains_insertKey]
  · rw [e]
    simp [contains_insertKey]

theorem add_keeps_marked (h : q.dirty.contains j = true) (k : κ) :
    (q.add k).dirty.contains j = true := by
  rcases q.add_cases k with ⟨_, e⟩ | ⟨_, _, e⟩ | ⟨_, _, e⟩
  · rwa [e]
  · rw [e]
    simp [contains_insertKey, h]
  · rw [e]
    simp [contains_insertKey, h]

omit [EquivBEq κ] in
theorem add_readyAt (k : κ) : (q.add k).readyAt = q.readyAt := by
  rcases q.add_cases k with ⟨_, e⟩ | ⟨_, _, e⟩ | ⟨_, _, e⟩ <;> rw [e]

theorem add_waiting (h : q.shuttingDown = false) (k : κ) : (q.add k).Waiting k :=
  Or.inl (add_marked h k)

theorem Waiting.add (h : q.Waiting j) (k : κ) : (q.add k).Waiting j := by
  rcases h with hd | hr
  · exact Or.inl (add_keeps_marked hd k)
  · exact Or.inr (by rwa [add_readyAt])

theorem Pending.add (h : q.Pending j) (k : κ) : (q.add k).Pending j := by
  rcases h with hw | hp
  · exact Or.inl (hw.add k)
  · exact Or.inr (by rwa [add_processing])

omit [EquivBEq κ] in
theorem foldl_add_shuttingDown (ks : List κ) (q : WorkQueue κ τ) :
    (ks.foldl (fun q k => q.add k) q).shuttingDown = q.shuttingDown := by
  induction ks generalizing q with
  | nil => rfl
  | cons k r ih => rw [List.foldl_cons, ih, add_shuttingDown]

theorem Pending.foldl_add (ks : List κ) (h : q.Pending j) :
    (ks.foldl (fun q k => q.add k) q).Pending j := by
  induction ks generalizing q with
  | nil => exact h
  | cons k r ih => exact ih (h.add k)

theorem foldl_add_keeps_marked (ks : List κ) (h : q.dirty.contains j = true) :
    (ks.foldl (fun q k => q.add k) q).dirty.contains j = true := by
  induction ks generalizing q with
  | nil => exact h
  | cons k r ih => exact ih (add_keeps_marked h k)

theorem foldl_add_marked {ks : List κ} (hj : ks.contains j = true) (h : q.shuttingDown = false) :
    (ks.foldl (fun q k => q.add k) q).dirty.contains j = true := by
  induction ks generalizing q with
  | nil => simp at hj
  | cons k r ih =>
      rw [List.contains_cons, Bool.or_eq_true] at hj
      rcases hj with hk | hr
      · refine foldl_add_keeps_marked r ?_
        rw [List.contains_congr hk]
        exact add_marked h k
      · exact ih hr (by rw [add_shuttingDown, h])

/-! ### Handing out and releasing -/

theorem Pending.take (h : q.Pending j) : q.take.2.Pending j := by
  rcases q.take_cases with ⟨_, e⟩ | ⟨k, r, _, _, e⟩
  · rwa [e]
  · rw [e]
    rcases h with (hd | hr) | hp
    · cases hk : j == k with
      | true => exact Or.inr (by simp [contains_insertKey, hk])
      | false => exact Or.inl (Or.inl (by simpa [contains_removeKey, hk] using hd))
    · exact Or.inl (Or.inr hr)
    · exact Or.inr (by simp [contains_insertKey, hp])

omit [EquivBEq κ] in
theorem take_shuttingDown : q.take.2.shuttingDown = q.shuttingDown := by
  rcases q.take_cases with ⟨_, e⟩ | ⟨k, r, _, _, e⟩ <;> rw [e]

omit [EquivBEq κ] in
theorem release_shuttingDown (k : κ) : (q.release k).shuttingDown = q.shuttingDown := by
  rcases q.release_cases k with ⟨_, e⟩ | ⟨_, e⟩ <;> rw [e]

omit [EquivBEq κ] in
theorem Waiting.release (h : q.Waiting j) (k : κ) : (q.release k).Waiting j := by
  rcases q.release_cases k with ⟨_, e⟩ | ⟨_, e⟩
  · rw [e]
    exact h
  · rw [e]
    exact h

theorem Pending.release (h : q.Pending j) {k : κ} (hk : (j == k) = false) :
    (q.release k).Pending j := by
  rcases h with hw | hp
  · exact Or.inl (hw.release k)
  · refine Or.inr ?_
    rcases q.release_cases k with ⟨_, e⟩ | ⟨_, e⟩
    · rw [e, contains_removeKey, hk]
      exact hp
    · rw [e, contains_removeKey, hk]
      exact hp

/-! ### Delays -/

variable [TimeScale τ]

theorem schedule_has (k : κ) (ready : τ) :
    Dictionary.has k (q.schedule k ready).readyAt = true := by
  simp [schedule, Dictionary.has, Dictionary.get?_set_self]

theorem addAfter_waiting (h : q.shuttingDown = false) (now : τ) (k : κ) (delay : τ) :
    (q.addAfter now k delay).Waiting k := by
  unfold addAfter
  rw [if_neg (by simp [h])]
  split
  · exact add_waiting h k
  · cases hr : Dictionary.get? k q.readyAt with
    | none => exact Or.inr (schedule_has k _)
    | some ready =>
        dsimp only
        split
        · exact Or.inr (by simp [Dictionary.has, hr])
        · exact Or.inr (schedule_has k _)

theorem Pending.addAfter (h : q.Pending j) (now : τ) (k : κ) (delay : τ) :
    (q.addAfter now k delay).Pending j := by
  have scheduled : ∀ ready, (q.schedule k ready).Pending j := by
    intro ready
    rcases h with (hd | hr) | hp
    · exact Or.inl (Or.inl hd)
    · refine Or.inl (Or.inr ?_)
      rw [Dictionary.has, schedule, Dictionary.get?_set]
      split
      · rfl
      · exact hr
    · exact Or.inr hp
  unfold WorkQueue.addAfter
  split
  · exact h
  · split
    · exact h.add k
    · split
      · split
        · exact h
        · exact scheduled _
      · exact scheduled _

theorem addRateLimited_waiting (h : q.shuttingDown = false) (now : τ) (k : κ) :
    (q.addRateLimited now k).Waiting k :=
  addAfter_waiting (q := (q.backoff k).2) h now k _

theorem Pending.addRateLimited (h : q.Pending j) (now : τ) (k : κ) :
    (q.addRateLimited now k).Pending j :=
  Pending.addAfter (q := (q.backoff k).2) h now k _

omit [EquivBEq κ] in
theorem addRateLimited_shuttingDown (now : τ) (k : κ) :
    (q.addRateLimited now k).shuttingDown = q.shuttingDown := by
  rcases (q.backoff k).2.addAfter_cases now k (q.backoff k).1 with ⟨_, e⟩ | ⟨_, _, _, _, e⟩
  · rw [WorkQueue.addRateLimited]
    dsimp only
    rw [e, add_shuttingDown]
    rfl
  · exact e

/-- A time that leaves `readyAt` is that of a due key. -/
theorem collectDue_get? (ds : List (DelayedKey κ τ)) {readyAt : List (κ × τ)} {ready : τ}
    (h : Dictionary.get? j readyAt = some ready) :
    (collectDue ds readyAt).1.contains j = true ∨
      Dictionary.get? j (collectDue ds readyAt).2 = some ready := by
  induction ds generalizing readyAt with
  | nil => exact Or.inr h
  | cons d r ih =>
      unfold collectDue
      split
      · split
        · cases hj : j == d.key with
          | true => exact Or.inl (by simp [hj])
          | false =>
              have kept : Dictionary.get? j (Dictionary.erase d.key readyAt) = some ready := by
                rw [Dictionary.get?_erase, hj]
                exact h
              rcases ih kept with hd | hr
              · exact Or.inl (by simp [hd])
              · exact Or.inr hr
        · exact ih h
      · exact ih h

/-- `deliver` keeps a key `Pending`: one that loses its time is marked. -/
theorem Pending.deliver (h : q.Pending j) (now : τ) : (q.deliver now).Pending j := by
  cases hs : q.shuttingDown with
  | true =>
      rw [deliver_of_shuttingDown hs]
      exact h
  | false =>
      rw [q.deliver_eq now hs]
      rcases h with (hd | hr) | hp
      · exact Pending.foldl_add _ (Or.inl (Or.inl hd))
      · obtain ⟨ready, hready⟩ := Option.isSome_iff_exists.mp hr
        rcases collectDue_get? (q.waiting.takeWhile fun d => atMost d.ready now) hready with
          hdue | hrest
        · exact Or.inl (Or.inl (foldl_add_marked hdue hs))
        · refine Pending.foldl_add _ (Or.inl (Or.inr ?_))
          exact Option.isSome_iff_exists.mpr ⟨ready, hrest⟩
      · exact Pending.foldl_add _ (Or.inr hp)

omit [EquivBEq κ] in
theorem deliver_shuttingDown (now : τ) : (q.deliver now).shuttingDown = q.shuttingDown := by
  cases hs : q.shuttingDown with
  | true => rw [deliver_of_shuttingDown hs, hs]
  | false =>
      rw [q.deliver_eq now hs, foldl_add_shuttingDown]
      exact hs

end QuotaWarden.WorkQueue
