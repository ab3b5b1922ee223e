import QuotaWarden.Cluster.Rehearsal
import QuotaWarden.Operator.Run
import QuotaWarden.Proofs.FailedNamespaces

/-! # Rounds over all namespaces at intervals

The loop that queues all namespaces takes turns: it waits for the stop signal, and each time that an
interval elapses it makes one round over all namespaces.

* `ResyncTurn` is a turn, and `resyncTurns` are the turns of a loop between which other threads
  change the operator in any way.
* `resyncTurn_spec` says what a turn does, by how its wait ended and its listing came out.

The loop goes on after a refused listing. Any other fault of a listing ends it, although the stop
signal is not set and more intervals elapse: `resync_survives_refusals` says when the loop ends, and
`resync_lost` is a loop that is lost to one such fault. -/

namespace QuotaWarden.Operator

open TimeScale WorkQueue

variable {σ τ : Type}

/-! ### Turns -/

/-- A turn of the loop. -/
structure ResyncTurn (σ τ : Type) where
  /-- The operator when the wait is over. -/
  waited : Operator σ τ
  /-- How the wait ended. -/
  ending : WaitEnd
  /-- How the round over all namespaces came out, if one was made. -/
  outcome : Option (Except Fault Nat)
  /-- The operator after the turn. -/
  after : Operator σ τ

namespace ResyncTurn

/-- Whether another turn follows. -/
def goesOn (t : ResyncTurn σ τ) : Bool :=
  match t.outcome with
  | some (.ok _) => true
  | _ => false

/-- How a listing of the namespaces comes out when the wait is over. -/
def listing [ClusterApi σ] (t : ResyncTurn σ τ) : Except Fault NamespaceList :=
  (Site.call ClusterApi.listNamespaces t.waited.site).1

/-- The turn has found a reason to be the last one: its wait ended with the stop signal or does not
end, or its listing broke off with a fault that is not a refusal. -/
def IsLast [ClusterApi σ] (t : ResyncTurn σ τ) : Prop :=
  t.ending = .stopped ∨ t.ending = .never ∨
    t.ending = .elapsed ∧ ∃ f, t.listing = .error f ∧ f.refusal? = none

/-- What a turn does. A round is made where an interval elapsed, and there only. One whose listing
fails leaves the queue as it is, and after one whose listing succeeds every namespace is marked
unless the queue is shut down. -/
structure Spec [ClusterApi σ] (t : ResyncTurn σ τ) : Prop where
  once : t.outcome.isSome = true ↔ t.ending = .elapsed
  unmade : t.ending ≠ .elapsed → t.after.queue = t.waited.queue
  refused : ∀ r, t.ending = .elapsed → t.listing = .error (.refused r) →
    t.outcome = some (.ok 0) ∧ t.after.queue = t.waited.queue
  broken : ∀ f, t.ending = .elapsed → t.listing = .error f → f.refusal? = none →
    t.outcome = some (.error f) ∧ t.after.queue = t.waited.queue
  listed : ∀ l, t.ending = .elapsed → t.listing = .ok l →
    t.outcome = some (.ok l.names.length) ∧ (t.after.queue.shuttingDown = false →
      ∀ n ∈ l.names, t.after.queue.dirty.contains (namespaceKey n) = true)

end ResyncTurn

/-- A turn whose interval has elapsed makes a round. -/
def roundTurn [ClusterApi σ] (o : Operator σ τ) : ResyncTurn σ τ :=
  ⟨o, .elapsed, some (resyncAll o).1, (resyncAll o).2⟩

theorem enqueueAll_marked {names : List (Option String)} {n : Option String} (hn : n ∈ names)
    {o : Operator σ τ} (hs : (enqueueAll names o).queue.shuttingDown = false) :
    (enqueueAll names o).queue.dirty.contains (namespaceKey n) = true := by
  rw [enqueueAll_queue, foldl_add_shuttingDown] at hs
  rw [enqueueAll_queue]
  have listed : (names.map namespaceKey).contains (namespaceKey n) = true :=
    List.contains_iff_exists_mem_beq.mpr ⟨_, List.mem_map_of_mem hn, BEq.refl _⟩
  exact foldl_add_marked listed hs

theorem roundTurn_spec [ClusterApi σ] (o : Operator σ τ) : (roundTurn o).Spec := by
  rcases resyncAll_cases o with ⟨r, t, hl, e⟩ | ⟨f, t, hl, hf, e⟩ | ⟨l, t, hl, e⟩
  · have answer : (roundTurn o).listing = .error (.refused r) := congrArg Prod.fst hl
    refine ⟨by simp [roundTurn], fun h => absurd rfl h, fun _ _ _ => ?_, fun f _ hlisting hf => ?_,
      fun l _ hlisting => ?_⟩
    · simp [roundTurn, e, log]
    · obtain rfl : .refused r = f := by simpa [answer] using hlisting
      cases hf
    · simp [answer] at hlisting
  · have answer : (roundTurn o).listing = .error f := congrArg Prod.fst hl
    refine ⟨by simp [roundTurn], fun h => absurd rfl h, fun r _ hlisting => ?_,
      fun g _ hlisting _ => ?_, fun l _ hlisting => ?_⟩
    · obtain rfl : f = .refused r := by simpa [answer] using hlisting
      cases hf
    · obtain rfl : f = g := by simpa [answer] using hlisting
      simp [roundTurn, e]
    · simp [answer] at hlisting
  · have answer : (roundTurn o).listing = .ok l := congrArg Prod.fst hl
    refine ⟨by simp [roundTurn], fun h => absurd rfl h, fun r _ hlisting => ?_,
      fun f _ hlisting => ?_, fun m _ hlisting => ?_⟩
    · simp [answer] at hlisting
    · simp [answer] at hlisting
    · obtain rfl : l = m := by simpa [answer] using hlisting
      have after : (roundTurn o).after.queue = (enqueueAll l.names { o with site := t }).queue := by
        simp [roundTurn, e, inform, log]
      rw [after]
      exact ⟨by simp [roundTurn, e], fun hs n hn => enqueueAll_marked hn hs⟩

/-- `goesOn` says that the turn is not `IsLast`. -/
theorem ResyncTurn.Spec.goesOn_iff [ClusterApi σ] {t : ResyncTurn σ τ} (h : t.Spec) :
    t.goesOn = true ↔ ¬ t.IsLast := by
  have unmade : t.ending ≠ .elapsed → t.outcome = none := fun he => by
    simpa using mt h.once.mp he
  unfold goesOn IsLast
  cases hending : t.ending with
  | never => simp [unmade (by simp [hending])]
  | stopped => simp [unmade (by simp [hending])]
  | elapsed =>
      cases hl : t.listing with
      | ok l => simp [(h.listed l hending hl).1]
      | error f =>
          cases f with
          | refused r => simp [(h.refused r hending hl).1, Fault.refusal?]
          | _ => simp [(h.broken _ hending hl rfl).1, Fault.refusal?]

/-! ### The loop -/

variable [TimeScale τ] [Surroundings σ τ]

/-- The turn that begins in a state. -/
def resyncTurn (interval : τ) (o : Operator σ τ) : ResyncTurn σ τ :=
  match o.site.wait interval with
  | (.never, site) => ⟨{ o with site }, .never, none, { o with site }⟩
  | (.stopped, site) =>
    ⟨{ o with site }, .stopped, none,
      { o with site }.inform "[Resync] Stopping periodic sync loop"⟩
  | (.elapsed, site) => roundTurn { o with site }

/-- The turns of the loop, at most one for each of the changes by other threads that come before a
turn. -/
def resyncTurns (interval : τ) :
    List (Operator σ τ → Operator σ τ) → Operator σ τ → List (ResyncTurn σ τ)
  | [], _ => []
  | other :: others, o =>
    let t := resyncTurn interval (other o)
    t :: if t.goesOn then resyncTurns interval others t.after else []

theorem resyncRounds_succ (interval : τ) (n : Nat) (o : Operator σ τ) :
    resyncRounds interval (n + 1) o =
      if (resyncTurn interval o).goesOn then resyncRounds interval n (resyncTurn interval o).after
      else (resyncTurn interval o).after := by
  rw [resyncRounds]
  rcases hw : o.site.wait interval with ⟨ending, site⟩
  cases ending with
  | never => simp [resyncTurn, hw, ResyncTurn.goesOn]
  | stopped => simp [resyncTurn, hw, ResyncTurn.goesOn]
  | elapsed =>
      obtain ⟨outcome, o', hr⟩ : ∃ r o', resyncAll { o with site } = (r, o') := ⟨_, _, rfl⟩
      have turn : resyncTurn interval o = ⟨{ o with site }, .elapsed, some outcome, o'⟩ := by
        simp [resyncTurn, hw, roundTurn, hr]
      rw [turn]
      cases outcome with
      | error f => simp [hr, ResyncTurn.goesOn]
      | ok count => simp [hr, ResyncTurn.goesOn]

/-- `resyncRounds` ends as the last of `resyncTurns` does, by induction on the bound. -/
theorem resyncRounds_eq (interval : τ) (n : Nat) (o : Operator σ τ) :
    resyncRounds interval n o =
      ((resyncTurns interval (List.replicate n id) o).getLast?.map (·.after)).getD o := by
  induction n generalizing o with
  | zero => rfl
  | succ n ih =>
      rw [resyncRounds_succ, List.replicate_succ, resyncTurns, id_eq]
      cases hg : (resyncTurn interval o).goesOn with
      | false => simp
      | true => simp [ih, List.getLast?_cons]

theorem resyncTurn_spec (interval : τ) (o : Operator σ τ) : (resyncTurn interval o).Spec := by
  unfold resyncTurn
  rcases o.site.wait interval with ⟨ending, site⟩
  cases ending with
  | never => exact ⟨by simp, fun _ => rfl, nofun, nofun, nofun⟩
  | stopped => exact ⟨by simp, fun _ => rfl, nofun, nofun, nofun⟩
  | elapsed => exact roundTurn_spec _

theorem resyncTurns_spec (interval : τ) (others : List (Operator σ τ → Operator σ τ))
    (o : Operator σ τ) : ∀ t ∈ resyncTurns interval others o, t.Spec := by
  induction others generalizing o with
  | nil => simp [resyncTurns]
  | cons other others ih =>
      intro t ht
      rw [resyncTurns] at ht
      rcases List.mem_cons.mp ht with rfl | ht
      · exact resyncTurn_spec interval (other o)
      · split at ht
        · exact ih _ t ht
        · simp at ht

/-- Every turn but the last `goesOn`, by induction on the changes by other threads. -/
theorem resyncTurns_goOn (interval : τ) (others : List (Operator σ τ → Operator σ τ))
    (o : Operator σ τ) : ∀ t ∈ (resyncTurns interval others o).dropLast, t.goesOn = true := by
  induction others generalizing o with
  | nil => simp [resyncTurns]
  | cons other others ih =>
      intro t ht
      rw [resyncTurns] at ht
      cases hg : (resyncTurn interval (other o)).goesOn with
      | false => simp [hg] at ht
      | true =>
          simp only [hg, if_true] at ht
          cases hrest : resyncTurns interval others (resyncTurn interval (other o)).after with
          | nil => simp [hrest] at ht
          | cons first rest =>
              rw [hrest, List.dropLast_cons_cons, ← hrest] at ht
              rcases List.mem_cons.mp ht with rfl | ht
              · exact hg
              · exact ih _ t ht

/-- Fewer turns than there may be end with one that does not go on. -/
theorem resyncTurns_end {interval : τ} {others : List (Operator σ τ → Operator σ τ)}
    {o : Operator σ τ} (h : (resyncTurns interval others o).length < others.length) :
    ∃ t, (resyncTurns interval others o).getLast? = some t ∧ t.goesOn = false := by
  induction others generalizing o with
  | nil => simp at h
  | cons other others ih =>
      rw [resyncTurns] at h ⊢
      cases hg : (resyncTurn interval (other o)).goesOn with
      | false => exact ⟨_, by simp, hg⟩
      | true =>
          simp only [hg, if_true, List.length_cons, Nat.add_lt_add_iff_right] at h ⊢
          obtain ⟨t, ht, hlast⟩ := ih h
          exact ⟨t, by simp [List.getLast?_cons, ht], hlast⟩

/-- **Rounds survive refused listings.** Whatever other threads do between the turns of the loop,
and however its waits and listings come out:

* a turn makes one round if its interval elapsed and none otherwise; a round whose listing fails
  leaves the queue as it is, and after one whose listing succeeds every namespace of the listing is
  marked unless the queue is shut down;
* the loop goes on after each turn but the last, and it goes on as long as it may unless that one
  ended with the stop signal, waits still, or broke off with a fault of the listing that is not a
  refusal. -/
theorem resync_survives_refusals (interval : τ) (others : List (Operator σ τ → Operator σ τ))
    (o : Operator σ τ) :
    (∀ t ∈ resyncTurns interval others o, t.Spec) ∧
      (∀ t ∈ (resyncTurns interval others o).dropLast, ¬ t.IsLast) ∧
      ((resyncTurns interval others o).length < others.length →
        ∃ t, (resyncTurns interval others o).getLast? = some t ∧ t.IsLast) ∧
      ∀ n, others = List.replicate n id → resyncRounds interval n o =
        ((resyncTurns interval others o).getLast?.map (·.after)).getD o := by
  have spec := resyncTurns_spec interval others o
  refine ⟨spec, fun t ht => ?_, fun h => ?_, ?_⟩
  · have goes := resyncTurns_goOn interval others o t ht
    exact (spec t (List.mem_of_mem_dropLast ht)).goesOn_iff.mp goes
  · obtain ⟨t, ht, hlast⟩ := resyncTurns_end h
    have reason := (spec t (List.mem_of_getLast? ht)).goesOn_iff
    rw [hlast] at reason
    exact ⟨t, ht, by simpa using reason⟩
  · rintro n rfl
    exact resyncRounds_eq interval n o

/-- An operator on a cluster with one namespace, whose next listing of the namespaces comes out with
a fault, and for which so many intervals elapse. -/
def faulty (f : Fault) (ticks : Nat) : Operator (Rehearsal ℚ) ℚ :=
  Operator.start (.start
    { InMemory.empty with
      namespaces := [.str "team-a"]
      script := [(.listNamespaces, [⟨some f, false⟩])] }
    ⟨fun _ => true, ticks, fun _ => false, none, 0⟩)

/-- The listing of the first turn is refused: in the second turn the namespace is marked, and the
third one waits. -/
theorem resync_survives_refusals_twice :
    let o := faulty (.refused ⟨.int 500, .str "Internal Server Error"⟩) 2
    let turns := resyncTurns 60 [id, id, id, id] o
    turns.map (·.ending) = [.elapsed, .elapsed, .never] ∧
      (resyncRounds 60 4 o).queue.dirty = [.text "team-a"] ∧
      (∀ t ∈ turns.dropLast, ¬ t.IsLast) ∧ ∃ t, turns.getLast? = some t ∧ t.IsLast := by
  intro o turns
  obtain ⟨_, goOn, ends, _⟩ := resync_survives_refusals 60 [id, id, id, id] o
  exact ⟨by decide +kernel, by decide +kernel, goOn, ends (by decide +kernel)⟩

/-- The listing of the first turn breaks off: the loop has ended after that turn, although the stop
signal is not set and another interval elapses, and the namespace is never queued. -/
theorem resync_lost :
    let o := faulty (.broken "connection reset") 2
    (resyncTurns 60 [id, id] o).map (·.ending) = [.elapsed] ∧
      (resyncRounds 60 2 o).site.stopped = false ∧
      ((resyncRounds 60 2 o).site.wait 60).1 = .elapsed ∧
      (resyncRounds 60 2 o).queue.dirty = [] := by
  decide +kernel

end QuotaWarden.Operator
