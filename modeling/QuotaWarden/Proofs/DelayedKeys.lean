import QuotaWarden.Proofs.FailedNamespaces

/-! # Delayed keys and their due times

The queue holds its delayed keys as a list of entries and as the times that count. When a key gets
an earlier time, the entry of the later one stays in the list until its own time comes, and only the
comparison with the time that counts keeps it from being delivered.

* `DueTimes` are what this amounts to: one due time for each delayed key. A delayed add makes a key
  due `sooner`, a pass of the delivering loop leaves those that are due `later`.
* `Delays` are the runs of the queue without a shutdown, with the due times that its calls lead to.
* `Tracked` ties the entries and the times that count to the due times. Each call keeps it.

`delays_follow_due_times` is the main result: what is delivered is read off the due times alone. -/

namespace QuotaWarden

open TimeScale

/-- A scale on which any two amounts compare, and comparisons chain. -/
structure TimeScale.Total (τ : Type) [TimeScale τ] : Prop where
  total : ∀ x y : τ, atMost x y = true ∨ atMost y x = true
  trans : ∀ x y z : τ, atMost x y = true → atMost y z = true → atMost x z = true

section scales

variable {τ : Type} [TimeScale τ]

theorem TimeScale.Exact.total {value : τ → ℚ} (h : Exact value) : TimeScale.Total τ where
  total x y := by
    rw [h.atMost, h.atMost]
    exact le_total _ _
  trans x y z := by
    rw [h.atMost, h.atMost, h.atMost]
    exact le_trans

theorem TimeScale.Total.same_self (h : TimeScale.Total τ) (x : τ) : same x x = true := by
  have : atMost x x = true := (h.total x x).elim id id
  simp [same, this]

end scales

namespace WorkQueue

variable {κ τ : Type} [BEq κ] [TimeScale τ]

/-! ### Due times -/

/-- When each delayed key is due. -/
abbrev DueTimes (κ τ : Type) := κ → Option τ

/-- A key is due at a time, or as before if that is no later. -/
def DueTimes.sooner (k : κ) (t : τ) (e : DueTimes κ τ) : DueTimes κ τ := fun j =>
  if j == k then some (match e k with
    | some r => less r t
    | none => t)
  else e j

theorem DueTimes.sooner_of_later {e : DueTimes κ τ} {k : κ} {t : τ}
    (h : ∀ r, e k = some r → atMost r t = false) :
    e.sooner k t = fun j => if j == k then some t else e j := by
  funext j
  cases hk : e k with
  | none => simp only [sooner, hk]
  | some r => simp [sooner, hk, less, h r hk]

/-- The keys that are due only after a time. -/
def DueTimes.later (now : τ) (e : DueTimes κ τ) : DueTimes κ τ := fun j =>
  (e j).filter fun r => !atMost r now

/-- The due times after a call. -/
def Call.dueTimes (c : Call κ τ) (q : WorkQueue κ τ) (e : DueTimes κ τ) : DueTimes κ τ :=
  match c with
  | addAfter now k delay => if atMost delay 0 then e else e.sooner k (now + delay)
  | addRateLimited now k =>
    let delay := (q.backoff k).1
    if atMost delay 0 then e else e.sooner k (now + delay)
  | deliver now => e.later now
  | _ => e

/-- A run of calls from the empty queue, with the due times that they lead to. The queue does not
shut down. -/
inductive Delays (name : String) (base cap : τ) : WorkQueue κ τ → DueTimes κ τ → Prop
  | start : Delays name base cap (empty name base cap) fun _ => none
  | call {q : WorkQueue κ τ} {e : DueTimes κ τ} (c : Call κ τ) :
      Delays name base cap q e → c ≠ .shutDown → Delays name base cap (c.run q) (c.dueTimes q e)

/-! ### Entries in order -/

omit [BEq κ] in
theorem mem_insertDelayed (d e : DelayedKey κ τ) (ds : List (DelayedKey κ τ)) :
    e ∈ insertDelayed d ds ↔ e = d ∨ e ∈ ds := by
  induction ds with
  | nil => simp [insertDelayed]
  | cons x r ih =>
      unfold insertDelayed
      split
      · rw [List.mem_cons, ih, List.mem_cons]
        exact or_left_comm
      · rw [List.mem_cons]

/-- Entries in the order of their times. -/
def InOrder (ds : List (DelayedKey κ τ)) : Prop :=
  ds.Pairwise fun d e => atMost d.ready e.ready = true

omit [BEq κ] in
theorem insertDelayed_inOrder (scale : TimeScale.Total τ) {ds : List (DelayedKey κ τ)}
    (h : InOrder ds) (d : DelayedKey κ τ) : InOrder (insertDelayed d ds) := by
  induction ds with
  | nil => exact List.pairwise_singleton _ _
  | cons x r ih =>
      obtain ⟨hx, hr⟩ := List.pairwise_cons.mp h
      unfold insertDelayed
      split
      · next hle =>
          refine List.pairwise_cons.mpr ⟨fun e he => ?_, ih hr⟩
          rcases (mem_insertDelayed d e r).mp he with rfl | he
          · exact hle
          · exact hx e he
      · next hlt =>
          have first : atMost d.ready x.ready = true := (scale.total _ _).resolve_right hlt
          refine List.pairwise_cons.mpr ⟨fun e he => ?_, h⟩
          rcases List.mem_cons.mp he with rfl | he
          · exact first
          · exact scale.trans _ _ _ first (hx e he)

omit [BEq κ] in
theorem mem_takeWhile_ready (scale : TimeScale.Total τ) {ds : List (DelayedKey κ τ)}
    (h : InOrder ds) (now : τ) (d : DelayedKey κ τ) :
    (d ∈ ds.takeWhile fun d => atMost d.ready now) ↔ d ∈ ds ∧ atMost d.ready now = true := by
  induction ds with
  | nil => simp
  | cons x r ih =>
      obtain ⟨hx, hr⟩ := List.pairwise_cons.mp h
      rw [List.takeWhile_cons]
      split
      · next hnow =>
          rw [List.mem_cons, List.mem_cons, ih hr]
          constructor
          · rintro (rfl | ⟨hd, hle⟩)
            · exact ⟨Or.inl rfl, hnow⟩
            · exact ⟨Or.inr hd, hle⟩
          · rintro ⟨rfl | hd, hle⟩
            · exact Or.inl rfl
            · exact Or.inr ⟨hd, hle⟩
      · next hnow =>
          refine ⟨fun hd => absurd hd List.not_mem_nil, fun ⟨hd, hle⟩ => absurd ?_ hnow⟩
          rcases List.mem_cons.mp hd with rfl | hd
          · exact hle
          · exact scale.trans _ _ _ (hx d hd) hle

/-! ### Going through entries -/

/-- An entry has the time that counts for its key. -/
def Counts (m : List (κ × τ)) (d : DelayedKey κ τ) : Prop :=
  ∃ r, Dictionary.get? d.key m = some r ∧ same r d.ready = true

/-- The first entry of a key that `Counts` makes it due; the others are passed over. -/
theorem collectDue_cons (d : DelayedKey κ τ) (ds : List (DelayedKey κ τ)) (m : List (κ × τ)) :
    Counts m d ∧ collectDue (d :: ds) m =
      (d.key :: (collectDue ds (Dictionary.erase d.key m)).1,
        (collectDue ds (Dictionary.erase d.key m)).2) ∨
    ¬ Counts m d ∧ collectDue (d :: ds) m = collectDue ds m := by
  unfold Counts
  rw [collectDue]
  cases Dictionary.get? d.key m with
  | none => exact Or.inr ⟨by simp, rfl⟩
  | some ready =>
      by_cases hsame : same ready d.ready = true
      · exact Or.inl ⟨⟨ready, rfl, hsame⟩, if_pos hsame⟩
      · refine Or.inr ⟨?_, if_neg hsame⟩
        rintro ⟨r, hr, hs⟩
        exact hsame (Option.some.inj hr ▸ hs)

section collecting

variable [EquivBEq κ]

theorem counts_erase (k : κ) (m : List (κ × τ)) (d : DelayedKey κ τ) :
    Counts (Dictionary.erase k m) d ↔ (d.key == k) = false ∧ Counts m d := by
  unfold Counts
  rw [Dictionary.get?_erase]
  cases d.key == k <;> simp

theorem contains_collectDue (ds : List (DelayedKey κ τ)) (m : List (κ × τ)) (k : κ) :
    (collectDue ds m).1.contains k = true ↔ ∃ d ∈ ds, (d.key == k) = true ∧ Counts m d := by
  induction ds generalizing m with
  | nil => simp [collectDue]
  | cons d ds ih =>
      rcases collectDue_cons d ds m with ⟨hd, e⟩ | ⟨hd, e⟩
      · rw [e, List.contains_cons, Bool.or_eq_true, ih]
        constructor
        · rintro (hk | ⟨x, hx, hk, hc⟩)
          · exact ⟨d, List.mem_cons_self, BEq.symm hk, hd⟩
          · exact ⟨x, List.mem_cons_of_mem _ hx, hk, ((counts_erase _ _ _).mp hc).2⟩
        · rintro ⟨x, hx, hk, hc⟩
          cases hkd : k == d.key with
          | true => exact Or.inl rfl
          | false =>
              have apart : (x.key == d.key) = false := (BEq.congr_left hk).trans hkd
              rcases List.mem_cons.mp hx with rfl | hx
              · rw [BEq.refl] at apart
                cases apart
              · exact Or.inr ⟨x, hx, hk, (counts_erase _ _ _).mpr ⟨apart, hc⟩⟩
      · rw [e, ih]
        constructor
        · rintro ⟨x, hx, hc⟩
          exact ⟨x, List.mem_cons_of_mem _ hx, hc⟩
        · rintro ⟨x, hx, hk, hc⟩
          rcases List.mem_cons.mp hx with rfl | hx
          · exact absurd hc hd
          · exact ⟨x, hx, hk, hc⟩

theorem get?_collectDue (ds : List (DelayedKey κ τ)) (m : List (κ × τ)) (k : κ) :
    Dictionary.get? k (collectDue ds m).2 =
      if (collectDue ds m).1.contains k then none else Dictionary.get? k m := by
  induction ds generalizing m with
  | nil => simp [collectDue]
  | cons d ds ih =>
      rcases collectDue_cons d ds m with ⟨_, e⟩ | ⟨_, e⟩
      · rw [e, ih, List.contains_cons, Dictionary.get?_erase]
        cases k == d.key <;> simp
      · rw [e, ih]

theorem exists_counts_of_mem {ds : List (DelayedKey κ τ)} {m : List (κ × τ)} {k : κ}
    (h : k ∈ (collectDue ds m).1) : ∃ d ∈ ds, (d.key == k) = true ∧ Counts m d :=
  (contains_collectDue ds m k).mp (List.contains_iff_exists_mem_beq.mpr ⟨k, h, BEq.refl k⟩)

/-- A key that has left the times is not due again in the same pass. -/
theorem ne_of_mem_collectDue {ds : List (DelayedKey κ τ)} {m : List (κ × τ)} {i j : κ}
    (h : j ∈ (collectDue ds (Dictionary.erase i m)).1) : (i == j) = false := by
  obtain ⟨d, _, hk, hc⟩ := exists_counts_of_mem h
  rw [BEq.comm, ← BEq.congr_left hk]
  exact ((counts_erase _ _ _).mp hc).1

theorem collectDue_distinct (ds : List (DelayedKey κ τ)) (m : List (κ × τ)) :
    (collectDue ds m).1.Pairwise fun i j => (i == j) = false := by
  induction ds generalizing m with
  | nil => exact List.Pairwise.nil
  | cons d ds ih =>
      rcases collectDue_cons d ds m with ⟨_, e⟩ | ⟨_, e⟩
      · rw [e]
        exact List.pairwise_cons.mpr ⟨fun j hj => ne_of_mem_collectDue hj, ih _⟩
      · rw [e]
        exact ih m

theorem collectDue_inOrder (scale : TimeScale.Total τ) {ds : List (DelayedKey κ τ)}
    (h : InOrder ds) (m : List (κ × τ)) :
    (collectDue ds m).1.Pairwise fun i j => ∀ r s, Dictionary.get? i m = some r →
      Dictionary.get? j m = some s → atMost r s = true := by
  induction ds generalizing m with
  | nil => exact List.Pairwise.nil
  | cons d ds ih =>
      obtain ⟨hd, hds⟩ := List.pairwise_cons.mp h
      rcases collectDue_cons d ds m with ⟨⟨ready, hready, hsame⟩, e⟩ | ⟨_, e⟩
      · have kept : ∀ j ∈ (collectDue ds (Dictionary.erase d.key m)).1,
            Dictionary.get? j (Dictionary.erase d.key m) = Dictionary.get? j m := by
          intro j hj
          rw [Dictionary.get?_erase, BEq.comm, ne_of_mem_collectDue hj]
          rfl
        rw [e]
        refine List.pairwise_cons.mpr ⟨fun j hj r s hr hs => ?_, ?_⟩
        · -- The key has an entry of its own among the later ones, which are ready no earlier.
          obtain ⟨x, hx, hk, hc⟩ := exists_counts_of_mem hj
          obtain ⟨_, s', hs', hsame'⟩ := (counts_erase _ _ _).mp hc
          rw [Dictionary.get?_congr hk, hs, Option.some.injEq] at hs'
          rw [hready, Option.some.injEq] at hr
          subst hs' hr
          simp only [same, Bool.and_eq_true] at hsame hsame'
          exact scale.trans _ _ _ hsame.1 (scale.trans _ _ _ (hd x hx) hsame'.2)
        · refine (ih hds _).imp_of_mem fun hi hj hij r s hr hs => ?_
          exact hij r s ((kept _ hi).trans hr) ((kept _ hj).trans hs)
      · rw [e]
        exact ih hds m

end collecting

/-! ### The entries and the due times -/

/-- How a queue holds due times: the times that count are theirs, and each stands in an entry. -/
structure Tracked (q : WorkQueue κ τ) (e : DueTimes κ τ) : Prop where
  serving : q.shuttingDown = false
  inOrder : InOrder q.waiting
  times : ∀ k, Dictionary.get? k q.readyAt = e k
  entered : ∀ k r, e k = some r → ∃ d ∈ q.waiting, (d.key == k) = true ∧ d.ready = r

variable {q q' : WorkQueue κ τ} {e : DueTimes κ τ}

theorem empty_tracked (name : String) (base cap : τ) :
    Tracked (empty name base cap : WorkQueue κ τ) fun _ => none :=
  ⟨rfl, List.Pairwise.nil, fun _ => rfl, fun _ _ h => absurd h (by simp)⟩

theorem Tracked.congr (h : Tracked q e) (hs : q'.shuttingDown = q.shuttingDown)
    (hw : q'.waiting = q.waiting) (hr : q'.readyAt = q.readyAt) : Tracked q' e := by
  refine ⟨hs.trans h.serving, ?_, ?_, ?_⟩
  · rw [hw]; exact h.inOrder
  · rw [hr]; exact h.times
  · rw [hw]; exact h.entered

theorem Tracked.add (h : Tracked q e) (k : κ) : Tracked (q.add k) e := by
  refine h.congr (q.add_shuttingDown k) ?_ (add_readyAt k)
  rcases q.add_cases k with ⟨_, eq⟩ | ⟨_, _, eq⟩ | ⟨_, _, eq⟩ <;> rw [eq]

theorem Tracked.adds (h : Tracked q e) (ks : List κ) :
    Tracked (ks.foldl (fun q k => q.add k) q) e := by
  induction ks generalizing q with
  | nil => exact h
  | cons k r ih => exact ih (h.add k)

theorem Tracked.take (h : Tracked q e) : Tracked q.take.2 e := by
  rcases q.take_cases with ⟨_, eq⟩ | ⟨k, r, _, _, eq⟩
  · rwa [eq]
  · rw [eq]
    exact h.congr rfl rfl rfl

theorem Tracked.release (h : Tracked q e) (k : κ) : Tracked (q.release k) e := by
  rcases q.release_cases k with ⟨_, eq⟩ | ⟨_, eq⟩
  · rw [eq]
    exact h.congr rfl rfl rfl
  · rw [eq]
    exact h.congr rfl rfl rfl

section passes

variable [EquivBEq κ]

theorem Tracked.same_key (h : Tracked q e) {j k : κ} (hjk : (j == k) = true) : e j = e k := by
  rw [← h.times, ← h.times, Dictionary.get?_congr hjk]

theorem Tracked.schedule (scale : TimeScale.Total τ) (h : Tracked q e) (k : κ) (t : τ) :
    Tracked (q.schedule k t) fun j => if j == k then some t else e j := by
  refine ⟨h.serving, insertDelayed_inOrder scale h.inOrder _, fun j => ?_, fun j r hj => ?_⟩
  · rw [WorkQueue.schedule, Dictionary.get?_set, h.times]
  · split at hj
    · next hjk =>
        exact ⟨_, (mem_insertDelayed _ _ _).mpr (Or.inl rfl), BEq.symm hjk, Option.some.inj hj⟩
    · obtain ⟨d, hd, hk, hr⟩ := h.entered j r hj
      exact ⟨d, (mem_insertDelayed _ _ _).mpr (Or.inr hd), hk, hr⟩

theorem Tracked.addAfter (scale : TimeScale.Total τ) (h : Tracked q e) (now : τ) (k : κ)
    (delay : τ) : Tracked (q.addAfter now k delay)
      (if atMost delay 0 then e else e.sooner k (now + delay)) := by
  rw [WorkQueue.addAfter, if_neg (by simp [h.serving])]
  split
  · exact h.add k
  · cases hk : e k with
    | none =>
        rw [h.times, hk, DueTimes.sooner_of_later (by simp [hk])]
        exact h.schedule scale k (now + delay)
    | some ready =>
        rw [h.times, hk]
        dsimp only
        split
        · next hle =>
            have kept : e.sooner k (now + delay) = e := by
              funext j
              simp only [DueTimes.sooner, hk, less, hle, if_true]
              split
              · next hjk => rw [h.same_key hjk, hk]
              · rfl
            rwa [kept]
        · next hlt =>
            rw [DueTimes.sooner_of_later (by simpa [hk] using hlt)]
            exact h.schedule scale k (now + delay)

/-- `due now` are the keys whose due time is at most `now`. -/
theorem Tracked.contains_due (scale : TimeScale.Total τ) (h : Tracked q e) (now : τ) (k : κ) :
    (q.due now).contains k = true ↔ ∃ r, e k = some r ∧ atMost r now = true := by
  rw [due, contains_collectDue]
  constructor
  · rintro ⟨d, hd, hk, r, hr, hsame⟩
    rw [mem_takeWhile_ready scale h.inOrder] at hd
    rw [h.times, h.same_key hk] at hr
    simp only [same, Bool.and_eq_true] at hsame
    exact ⟨r, hr, scale.trans _ _ _ hsame.1 hd.2⟩
  · rintro ⟨r, hr, hle⟩
    obtain ⟨d, hd, hk, rfl⟩ := h.entered k r hr
    have counts : Counts q.readyAt d :=
      ⟨d.ready, by rw [h.times, h.same_key hk, hr], scale.same_self d.ready⟩
    exact ⟨d, (mem_takeWhile_ready scale h.inOrder now d).mpr ⟨hd, hle⟩, hk, counts⟩

theorem Tracked.withoutDue (scale : TimeScale.Total τ) (h : Tracked q e) (now : τ) :
    Tracked (q.withoutDue now) (e.later now) := by
  refine ⟨h.serving, h.inOrder.sublist (List.dropWhile_sublist _), fun k => ?_, fun k r hk => ?_⟩
  · have due_iff := h.contains_due scale now k
    rw [due] at due_iff
    rw [WorkQueue.withoutDue, get?_collectDue, h.times, DueTimes.later]
    split
    · next hc =>
        obtain ⟨r, hr, hle⟩ := due_iff.mp hc
        rw [hr, Option.filter_some, hle]
        rfl
    · next hc =>
        cases hr : e k with
        | none => rfl
        | some r =>
            have late : atMost r now = false :=
              Bool.eq_false_iff.mpr fun hle => hc (due_iff.mpr ⟨r, hr, hle⟩)
            rw [Option.filter_some, late]
            rfl
  · obtain ⟨hk, hlate⟩ := Option.filter_eq_some_iff.mp hk
    obtain ⟨d, hd, hdk, rfl⟩ := h.entered k r hk
    refine ⟨d, ?_, hdk, rfl⟩
    rw [← q.waiting.takeWhile_append_dropWhile (p := fun d => atMost d.ready now),
      List.mem_append] at hd
    refine hd.resolve_left fun early => ?_
    simp [((mem_takeWhile_ready scale h.inOrder now d).mp early).2] at hlate

theorem Tracked.deliver (scale : TimeScale.Total τ) (h : Tracked q e) (now : τ) :
    Tracked (q.deliver now) (e.later now) := by
  rw [q.deliver_eq now h.serving]
  exact (h.withoutDue scale now).adds _

/-- Each call but `shutDown` does to the queue what `Call.dueTimes` does to due times. -/
theorem Tracked.call (scale : TimeScale.Total τ) (h : Tracked q e) {c : Call κ τ}
    (hc : c ≠ .shutDown) : Tracked (c.run q) (c.dueTimes q e) := by
  cases c with
  | add k => exact h.add k
  | take => exact h.take
  | release k => exact h.release k
  | forget k => exact h.congr rfl rfl rfl
  | backoff k => exact h.congr rfl rfl rfl
  | addRateLimited now k =>
      have counted : Tracked (q.backoff k).2 e := h.congr rfl rfl rfl
      exact counted.addAfter scale now k (q.backoff k).1
  | addAfter now k delay => exact h.addAfter scale now k delay
  | deliver now => exact h.deliver scale now
  | shutDown => exact absurd rfl hc

theorem Delays.tracked (scale : TimeScale.Total τ) {name : String} {base cap : τ}
    (h : Delays name base cap q e) : Tracked q e := by
  induction h with
  | start => exact empty_tracked name base cap
  | call c _ hc ih => exact ih.call scale hc

/-- After `deliver now`, nothing is due at `now`. -/
theorem Tracked.due_deliver (scale : TimeScale.Total τ) (h : Tracked q e) (now : τ) :
    (q.deliver now).due now = [] := by
  refine List.eq_nil_iff_forall_not_mem.mpr fun k hk => ?_
  have hc : ((q.deliver now).due now).contains k = true :=
    List.contains_iff_exists_mem_beq.mpr ⟨k, hk, BEq.refl k⟩
  obtain ⟨r, hr, hle⟩ := ((h.deliver scale now).contains_due scale now k).mp hc
  obtain ⟨_, hlate⟩ := Option.filter_eq_some_iff.mp hr
  simp [hle] at hlate

/-- The delayed keys of a queue are one due time for each key. A delayed add brings it forward, and
a pass adds each key whose due time has come once, in the order of these times, and leaves the
others as they are. -/
theorem delays_follow_due_times (scale : TimeScale.Total τ) {name : String} {base cap : τ}
    (h : Delays name base cap q e) :
    (∀ k, Dictionary.get? k q.readyAt = e k) ∧
    ∀ now,
      q.deliver now = (q.due now).foldl (fun q k => q.add k) (q.withoutDue now) ∧
      (∀ k, Dictionary.get? k (q.deliver now).readyAt = e.later now k) ∧
      (∀ k, (q.due now).contains k = true ↔ ∃ r, e k = some r ∧ atMost r now = true) ∧
      (q.due now).Pairwise (fun i j => (i == j) = false) ∧
      (q.due now).Pairwise (fun i j => ∀ r s, e i = some r → e j = some s → atMost r s = true) ∧
      (q.deliver now).due now = [] := by
  have tracked := h.tracked scale
  refine ⟨tracked.times, fun now => ⟨q.deliver_eq now tracked.serving,
    (tracked.deliver scale now).times, tracked.contains_due scale now, collectDue_distinct _ _, ?_,
    tracked.due_deliver scale now⟩⟩
  have early : InOrder (q.waiting.takeWhile fun d => atMost d.ready now) :=
    tracked.inOrder.sublist (List.takeWhile_sublist _)
  refine (collectDue_inOrder scale early q.readyAt).imp fun hij r s hr hs => ?_
  exact hij r s ((tracked.times _).trans hr) ((tracked.times _).trans hs)

end passes

/-- A key is delayed to 10, brought forward to 5, delivered, and delayed to 10 again, where the
entry of its first time still stands: it is delivered there, once. -/
theorem delays_follow_due_times_rescheduled :
    let calls : List (Call String ℚ) :=
      [.addAfter 0 "a" 10, .addAfter 0 "a" 5, .deliver 5, .addAfter 5 "a" 5]
    let q := calls.foldl (fun q c => c.run q) (empty "" 1 4)
    ∃ e : DueTimes String ℚ, Delays "" 1 4 q e ∧ q.waiting.map (·.ready) = [10, 10] ∧
      e "a" = some 10 ∧ (q.due 10).contains "a" = true ∧ q.due 10 = ["a"] ∧
      (q.deliver 10).due 10 = [] := by
  intro calls q
  obtain ⟨e, h⟩ : ∃ e : DueTimes String ℚ, Delays "" 1 4 q e :=
    ⟨_, .call (.addAfter 5 "a" 5) (.call (.deliver 5) (.call (.addAfter 0 "a" 5)
      (.call (.addAfter 0 "a" 10) .start nofun) nofun) nofun) nofun⟩
  obtain ⟨times, passes⟩ :=
    delays_follow_due_times (Exact.total TimeScale.exactTime_clock.toExact) h
  obtain ⟨_, _, due_iff, _, _, again⟩ := passes 10
  have due : e "a" = some 10 := (times "a").symm.trans (by decide +kernel)
  have come : (q.due 10).contains "a" = true := (due_iff "a").mpr ⟨10, due, by decide +kernel⟩
  exact ⟨e, h, by decide +kernel, due, come, by decide +kernel, again⟩

end WorkQueue

end QuotaWarden
