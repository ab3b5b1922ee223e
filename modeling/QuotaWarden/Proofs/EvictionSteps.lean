import QuotaWarden.Enforcement
import QuotaWarden.Proofs.Evaluation

/-! # The rounds of an enforcement

What one round of `enforceRounds` does, on any cluster, for each way in which the calls it makes
can come out. A listing that is refused or that respects the policy ends the enforcement; so does a
dry run. A delete, done or refused, is followed by the next round, and when none is left by a last
evaluation. -/

namespace QuotaWarden

variable {σ τ : Type} [ClusterApi σ] {ns : Json} {p : Policy} {pods : List Pod} {v : Verdict}
  {s : Site σ τ} {c : σ} {r : Refusal}

/-! ### Listing -/

omit [ClusterApi σ] in
theorem call_apply {α : Type} (a : Act σ α) (s : Site σ τ) :
    Site.call a s = ((a s.cluster).1, { s with cluster := (a s.cluster).2 }) := rfl

theorem evaluateNamespace_refused
    (hl : ClusterApi.listPods ns s.cluster = (.error (.refused r), c)) :
    evaluateNamespace ns p s = (.error (.podsNotListed ns r), { s with cluster := c }) := by
  unfold evaluateNamespace listNamespace
  simp [Act.bind_apply, call_apply, hl]

theorem evaluateNamespace_listed (hl : ClusterApi.listPods ns s.cluster = (.ok pods, c))
    (hv : verdictOn p pods = .ok v) :
    evaluateNamespace ns p s = (.ok (v, pods), { s with cluster := c }) := by
  unfold verdictOn at hv
  unfold evaluateNamespace listNamespace
  simp [Act.bind_apply, call_apply, hl, hv]

theorem verdictOn_of_evaluateNamespace {t : Site σ τ}
    (h : evaluateNamespace ns p s = (.ok (v, pods), t)) : verdictOn p pods = .ok v := by
  unfold evaluateNamespace at h
  obtain ⟨listed, _, _, h⟩ := Act.bind_eq_ok.mp h
  obtain ⟨verdict, _, hverdict, h⟩ := Act.bind_eq_ok.mp h
  obtain ⟨rfl, rfl⟩ := Prod.mk.inj (Except.ok.inj (Prod.mk.inj h).1)
  exact (Prod.mk.inj hverdict).1

/-! ### Deleting -/

/-- The outcome of a call that is done, or refused. -/
def deleteOutcome : Option Refusal → Except Fault Unit
  | none => .ok ()
  | some r => .error (.refused r)

/-- What the delete call for a pod answers. -/
def DeleteAnswer (q : Pod) (c c' : σ) (answer : Option Refusal) : Prop :=
  ∃ m, q.metadata = some m ∧
    ClusterApi.deletePod m.ns m.name deleteGraceSeconds c = (deleteOutcome answer, c')

/-- Whether a pod is gone after an answer to its delete call. -/
def gone : Option Refusal → Bool
  | none => true
  | some r => r.isMissing

/-- The refusal that an answer leaves for the end of an enforcement. -/
def refusalLeft (answer : Option Refusal) : Option Refusal :=
  if gone answer then none else answer

theorem deletePod_gone {q : Pod} {answer : Option Refusal}
    (hd : DeleteAnswer q s.cluster c answer) (hg : gone answer = true) :
    deletePod q s = (.ok (), { s with cluster := c }) := by
  obtain ⟨m, hm, hd⟩ := hd
  unfold deletePod
  rw [hm]
  cases answer with
  | none => simp [Act.bind_apply, call_apply, hd, deleteOutcome]
  | some r =>
      have hr : r.isMissing = true := hg
      simp [Act.bind_apply, call_apply, hd, deleteOutcome, hr]

theorem deletePod_refused {q : Pod} (hd : DeleteAnswer q s.cluster c (some r))
    (hg : r.isMissing = false) :
    deletePod q s = (.error (.refused r), { s with cluster := c }) := by
  obtain ⟨m, hm, hd⟩ := hd
  unfold deletePod
  rw [hm]
  simp [Act.bind_apply, call_apply, hd, deleteOutcome, hg]

/-- The counters after a delete. -/
def countDelete (o : EnforcementOptions) (ns : Json) (m : Metrics) : Metrics :=
  if o.counted then m.acted "delete" ns.display else m

variable [TimeScale τ] (o : EnforcementOptions)

theorem evict_gone (ns : Json) (p : Policy) (v : Verdict) {q : Pod} {answer : Option Refusal}
    (round : Nat)
    (hd : DeleteAnswer q s.cluster c answer) (hg : gone answer = true) :
    ∃ t, evict o ns p v round q s = (.ok .deleted, t) ∧ t.cluster = c ∧
      t.metrics = countDelete o ns s.metrics := by
  unfold evict
  rw [Act.bind_apply, Act.attempt_apply, deletePod_gone hd hg]
  unfold countDelete
  cases o.counted with
  | true => exact ⟨_, rfl, rfl, rfl⟩
  | false => exact ⟨_, rfl, rfl, rfl⟩

theorem evict_refused (ns : Json) (p : Policy) (v : Verdict) {q : Pod} (round : Nat)
    (hd : DeleteAnswer q s.cluster c (some r)) (hg : r.isMissing = false) :
    ∃ t, evict o ns p v round q s = (.ok (.refused r), t) ∧ t.cluster = c ∧
      t.metrics = s.metrics := by
  unfold evict
  rw [Act.bind_apply, Act.attempt_apply, deletePod_refused hd hg]
  exact ⟨_, rfl, rfl, rfl⟩

/-! ### Rounds -/

theorem enforceRounds_unlisted (left round : Nat) (last : Option Refusal)
    (hl : ClusterApi.listPods ns s.cluster = (.error (.refused r), c)) :
    enforceRounds o ns p left round last s =
      (.error (.podsNotListed ns r), { s with cluster := c }) := by
  cases left with
  | zero => exact Act.bind_of_error (evaluateNamespace_refused hl)
  | succ left => exact Act.bind_of_error (evaluateNamespace_refused hl)

theorem enforceRounds_compliant (left round : Nat) (last : Option Refusal)
    (hl : ClusterApi.listPods ns s.cluster = (.ok pods, c)) (hv : verdictOn p pods = .ok v)
    (hok : v.violated = false) :
    enforceRounds o ns p left round last s = (.ok v, { s with cluster := c }) := by
  have e := evaluateNamespace_listed hl hv
  cases left with
  | zero =>
      unfold enforceRounds concludeEnforcement
      rw [Act.bind_of_ok e]
      simp [hok]
  | succ left =>
      unfold enforceRounds
      rw [Act.bind_of_ok e]
      simp [hok]

theorem enforceRounds_stillViolated (round : Nat)
    (hl : ClusterApi.listPods ns s.cluster = (.ok pods, c)) (hv : verdictOn p pods = .ok v)
    (hviolated : v.violated = true) :
    enforceRounds o ns p 0 round (some r) s =
      (.error (.stillViolated ns p.name.display v.message r), { s with cluster := c }) := by
  unfold enforceRounds concludeEnforcement
  rw [Act.bind_of_ok (evaluateNamespace_listed hl hv)]
  simp [hviolated]

theorem enforceRounds_exhausted (round : Nat)
    (hl : ClusterApi.listPods ns s.cluster = (.ok pods, c)) (hv : verdictOn p pods = .ok v)
    (hviolated : v.violated = true) :
    ∃ t, enforceRounds o ns p 0 round none s = (.ok v, t) ∧ t.cluster = c ∧
      t.metrics = s.metrics := by
  unfold enforceRounds concludeEnforcement
  rw [Act.bind_of_ok (evaluateNamespace_listed hl hv)]
  dsimp only
  rw [if_pos hviolated]
  exact ⟨_, rfl, rfl, rfl⟩

variable {q : Pod} (left round : Nat) (last : Option Refusal)

/-- The rounds after an attempt to evict. -/
def roundsAfter (ns : Json) (p : Policy) (left round : Nat) : Attempt → Act (Site σ τ) Verdict
  | .deleted => enforceRounds o ns p left (round + 1) none
  | .refused r => enforceRounds o ns p left (round + 1) (some r)

theorem enforceRounds_unchosen {t : Site σ τ} {f : Fault}
    (he : evaluateNamespace ns p s = (.ok (v, pods), t)) (hviolated : v.violated = true)
    (hq : o.choose pods v.reason = .error f) :
    enforceRounds o ns p (left + 1) round last s = (.error f, t) := by
  rw [enforceRounds, Act.bind_of_ok he]
  dsimp only
  rw [if_neg (by simp [hviolated]), Act.bind_apply, Act.lift_apply, hq]

/-- A round with a victim: `evict` and `roundsAfter`, or the verdict in a dry run. -/
theorem enforceRounds_chosen {t : Site σ τ} (he : evaluateNamespace ns p s = (.ok (v, pods), t))
    (hviolated : v.violated = true) (hq : o.choose pods v.reason = .ok (some q)) :
    enforceRounds o ns p (left + 1) round last s =
      if o.dryRun then (.ok v, t.note (.log ⟨.info, "[DRY-RUN] Would delete pod " ++
        podLabel ns q ++ " (" ++ v.message ++ ")"⟩))
      else (evict o ns p v round q >>= roundsAfter o ns p left round) t := by
  rw [enforceRounds, Act.bind_of_ok he]
  dsimp only
  rw [if_neg (by simp [hviolated]), Act.bind_apply, Act.lift_apply, hq]
  dsimp only
  split
  · rfl
  · refine congrFun (congrArg _ (funext fun attempt => ?_)) t
    cases attempt <;> rfl

theorem enforceRounds_dryRun (hl : ClusterApi.listPods ns s.cluster = (.ok pods, c))
    (hv : verdictOn p pods = .ok v) (hviolated : v.violated = true)
    (hq : o.choose pods v.reason = .ok (some q)) (hdry : o.dryRun = true) :
    ∃ t, enforceRounds o ns p (left + 1) round last s = (.ok v, t) ∧ t.cluster = c ∧
      t.metrics = s.metrics := by
  rw [enforceRounds_chosen o left round last (evaluateNamespace_listed hl hv) hviolated hq,
    if_pos hdry]
  exact ⟨_, rfl, rfl, rfl⟩

theorem enforceRounds_violated (hl : ClusterApi.listPods ns s.cluster = (.ok pods, c))
    (hv : verdictOn p pods = .ok v) (hviolated : v.violated = true)
    (hq : o.choose pods v.reason = .ok (some q)) (hdry : o.dryRun = false) :
    enforceRounds o ns p (left + 1) round last s =
      (evict o ns p v round q >>= roundsAfter o ns p left round) { s with cluster := c } := by
  rw [enforceRounds_chosen o left round last (evaluateNamespace_listed hl hv) hviolated hq,
    if_neg (by simp [hdry])]

/-- After a delete comes the next round, with the `refusalLeft` by its answer. -/
theorem enforceRounds_evicted {c' : σ} {answer : Option Refusal}
    (hl : ClusterApi.listPods ns s.cluster = (.ok pods, c)) (hv : verdictOn p pods = .ok v)
    (hviolated : v.violated = true) (hq : o.choose pods v.reason = .ok (some q))
    (hdry : o.dryRun = false) (hd : DeleteAnswer q c c' answer) :
    ∃ t, enforceRounds o ns p (left + 1) round last s =
      enforceRounds o ns p left (round + 1) (refusalLeft answer) t ∧ t.cluster = c' ∧
      t.metrics = if gone answer then countDelete o ns s.metrics else s.metrics := by
  rw [enforceRounds_violated o left round last hl hv hviolated hq hdry]
  cases hg : gone answer with
  | true =>
      obtain ⟨t, e, hc, hm⟩ := evict_gone (s := { s with cluster := c }) o ns p v round hd hg
      refine ⟨t, ?_, hc, hm⟩
      rw [Act.bind_of_ok e, roundsAfter, refusalLeft, if_pos hg]
  | false =>
      cases answer with
      | none => exact absurd hg (by decide)
      | some r =>
          obtain ⟨t, e, hc, hm⟩ :=
            evict_refused (s := { s with cluster := c }) o ns p v round hd hg
          refine ⟨t, ?_, hc, hm⟩
          rw [Act.bind_of_ok e, roundsAfter, refusalLeft, if_neg (by simp [hg])]

end QuotaWarden
