import QuotaWarden.Proofs.Isolation
import QuotaWarden.Proofs.ReconcileCourses

/-! # What reconciling a namespace comes to

Reconciling a namespace forgets it, succeeds or fails, and what is remembered, posted, counted,
written and given goes together on each of these ways.

* `Enforceable` are the objects that read as policies with texts as namespace and name, and with
  limits that can be written. `Governs` and `Ungoverned` tell which policy of a cache a namespace is
  reconciled against, if there is one.
* `SyncCourse` are the courses of a sync (`sync_course`); they make the calls of `syncCalls`
  (`syncCalls_course`), and are determined by the answers to calls that post no event
  (`SyncCourse.unique`).
* `SyncOutcome` is what a sync comes to. `sync_outcome` is the main result. -/

namespace QuotaWarden

/-! ### Counters of reconciles -/

section

variable {ns : String}

/-- The series that counts the reconciles of a namespace. -/
def reconcileSeries (ns : String) : Series := ⟨.reconciles, ["pod", ns]⟩

/-- The series that counts the failed reconciles of a namespace. -/
def errorSeries (ns : String) : Series := ⟨.reconcileErrors, ["pod", ns]⟩

theorem Metrics.value_reconciled (failed : Bool) (r : Series) (m : Metrics) :
    (m.reconciled ns failed).value r = m.value r + (if r = reconcileSeries ns then 1 else 0) +
      if r = errorSeries ns ∧ failed = true then 1 else 0 := by
  cases failed with
  | false =>
      change (m.count (reconcileSeries ns)).value r = _
      rw [value_count_add]
      simp
  | true =>
      change ((m.count (reconcileSeries ns)).count (errorSeries ns)).value r = _
      rw [value_count_add, value_count_add]
      simp

theorem Metrics.value_reconciled_iterate (n : Nat) (r : Series) (m : Metrics) :
    ((reconciled ns false)^[n] m).value r =
      m.value r + if r = reconcileSeries ns then n else 0 := by
  induction n generalizing m with
  | zero => simp
  | succ n ih =>
      rw [Function.iterate_succ_apply, ih, value_reconciled]
      by_cases hr : r = reconcileSeries ns
      · simp only [hr, if_true, Bool.false_eq_true, and_false, if_false]
        omega
      · simp [hr]

theorem Metrics.value_countDelete_of_ne (o : EnforcementOptions) {ns : Json} {r : Series}
    (hr : r ≠ deleteSeries ns) (n : Nat) (m : Metrics) :
    ((countDelete o ns)^[n] m).value r = m.value r := by
  induction n generalizing m with
  | zero => rfl
  | succ n ih =>
      rw [Function.iterate_succ_apply, ih, countDelete]
      split
      · rw [Metrics.acted, ← deleteSeries, value_count, if_neg hr]
      · rfl

end

namespace Operator

variable {σ τ : Type} {o : Operator σ τ} {ns : String}

/-! ### The policy of a namespace -/

/-- An object is a policy with a namespace and a name, and its limits can be written. -/
def Enforceable (x : ApiObject) : Prop :=
  ∃ ns name p, x.IsAt ns name ∧ ns ≠ "" ∧ name ≠ "" ∧ x.policy? = .ok p ∧ p.Writable

/-- A policy governs a namespace: the first one by name of a cache that is synced. -/
def Governs (ns name : String) (p : Policy) (c : WatchCache) : Prop :=
  c.synced = true ∧ ∃ x, c.index.IsFirst ns name x ∧ x.policy? = .ok p

/-- No policy governs a namespace. -/
def Ungoverned (ns : String) (c : WatchCache) : Prop :=
  c.synced = true → ∀ name, c.index.get? ⟨.text ns, .text name⟩ = none

/-- The policies of a namespace can be read. -/
def Readable (ns : String) (i : Index) : Prop :=
  ∀ name x, i.get? ⟨.text ns, .text name⟩ = some x → ∃ p, x.policy? = .ok p

theorem readable_of_textual {i : Index} (h : i.Textual Enforceable) (ns : String) :
    Readable ns i := by
  intro name x hx
  obtain ⟨_, _, _, p, _, _, _, hp, _⟩ := h.isAt_of_get? hx
  exact ⟨p, hp⟩

theorem Governs.isAt {P : ApiObject → Prop} {c : WatchCache} (h : c.index.Textual P) {name : String}
    {p : Policy} (hg : Governs ns name p c) (hns : ns ≠ "") (hname : name ≠ "") :
    p.IsAt ns name := by
  obtain ⟨_, x, hfirst, hp⟩ := hg
  obtain ⟨version, hv⟩ := (h.isAt_of_get? hfirst.1).1
  obtain ⟨inNamespace, named⟩ := texts_of_policy? hv hp
  exact ⟨inNamespace ns rfl hns, named name rfl hname⟩

theorem Governs.of_textual {c : WatchCache} (h : c.index.Textual Enforceable) {name : String}
    {p : Policy} (hg : Governs ns name p c) (hns : ns ≠ "") : p.IsAt ns name ∧ p.Writable := by
  have located : name ≠ "" → p.IsAt ns name := hg.isAt h hns
  obtain ⟨_, x, hfirst, hp⟩ := hg
  obtain ⟨hat, ns', name', p', hat', _, hname', hp', writable⟩ := h.isAt_of_get? hfirst.1
  obtain ⟨rfl, rfl⟩ := hat.unique hat'
  obtain rfl := Except.ok.inj (hp'.symm.trans hp)
  exact ⟨located hname', writable⟩

/-- `listIn` is empty, or its first object is the policy that `Governs`. -/
theorem listIn_cases {P : ApiObject → Prop} {c : WatchCache} (h : c.index.Textual P)
    (hr : Readable ns c.index) :
    (c.listIn (.str ns) = .ok [] ∧ Ungoverned ns c) ∨
      ∃ x r name p, c.listIn (.str ns) = .ok (x :: r) ∧ Governs ns name p c ∧
        x.policy? = .ok p ∧ ∀ y ∈ x :: r, ∃ p, y.policy? = .ok p := by
  cases hs : c.synced with
  | false =>
      refine Or.inl ⟨(WatchCache.reads_of_unsynced hs _).2.1, fun synced => ?_⟩
      rw [hs] at synced
      cases synced
  | true =>
      obtain ⟨objects, hread, _, _, hmem⟩ := h.inNamespace_sorted ns
      have listed : c.listIn (.str ns) = .ok objects := by
        simpa [WatchCache.listIn, hs, Key.ofJson, bind, Except.bind] using hread
      have readable : ∀ y ∈ objects, ∃ p, y.policy? = .ok p := by
        intro y hy
        obtain ⟨name, hget⟩ := (hmem y).mp hy
        exact hr name y hget
      rcases h.inNamespace_cases ns with ⟨e, hnone⟩ | ⟨x, r, name, e, hfirst⟩
      · obtain rfl := Except.ok.inj (hread.symm.trans e)
        exact Or.inl ⟨listed, fun _ => hnone⟩
      · obtain rfl := Except.ok.inj (hread.symm.trans e)
        obtain ⟨p, hp⟩ := readable x List.mem_cons_self
        exact Or.inr ⟨x, r, name, p, listed, ⟨hs, x, hfirst, hp⟩, hp, readable⟩

/-! ### Reconciling with and without a policy -/

/-- Only the entry of a namespace has changed in what is remembered. -/
def Remembers (ns : String) (entry : Option Policy) (o o' : Operator σ τ) : Prop :=
  ∀ k, Dictionary.get? k o'.enforced =
    if k == Key.text ns then entry else Dictionary.get? k o.enforced

variable [ClusterApi σ] [TimeScale τ] (options : EnforcementOptions)

theorem sync_ungoverned (hl : o.policies.listIn (.str ns) = .ok []) :
    ∃ o', sync options (.str ns) o = (.ok none, o') ∧ Remembers ns none o o' ∧
      o'.site.cluster = o.site.cluster ∧ o'.site.metrics = o.site.metrics := by
  have hkey : Key.ofJson (.str ns) = .ok (.text ns) := rfl
  obtain ⟨_, t, e, hremove, ⟨hcluster, hmetrics⟩, hget⟩ := removeEnforced_apply hkey o
  have read : policiesOf (.str ns) o = (.ok [], o) := by
    change onSite (QuotaWarden.policiesOf o.policies (.str ns)) o = _
    rw [onSite_apply, QuotaWarden.policiesOf, Act.bind_apply, Act.lift_apply, hl]
    rfl
  refine ⟨{ o with site := t, enforced := e }, ?_, hget, hcluster, hmetrics⟩
  rw [sync, Act.bind_of_ok read]
  exact Act.bind_of_ok hremove

omit [ClusterApi σ] [TimeScale τ] in
theorem warnOfMany_apply (ns : Json) (p : Policy) (count : Nat) (s : Site σ τ) :
    ∃ t, warnOfMany ns p count s = (.ok (), t) ∧ s.Journaled t := by
  unfold warnOfMany
  split
  · exact ⟨_, rfl, _, rfl⟩
  · exact ⟨s, rfl, .refl s⟩

theorem sync_governed {x : ApiObject} {r : List ApiObject} {p : Policy}
    (hl : o.policies.listIn (.str ns) = .ok (x :: r)) (hp : x.policy? = .ok p)
    (hread : ∀ y ∈ x :: r, ∃ p, y.policy? = .ok p) (hns : p.ns = .str ns) :
    ∃ t, o.site.Journaled t ∧ sync options (.str ns) o =
      ((reconcile options (.str ns) p t).1.map some,
        { o with
          site := (reconcile options (.str ns) p t).2
          enforced := Dictionary.set (.text ns) p o.enforced }) := by
  obtain ⟨ps, t, hall, journaled, same⟩ := readAllWithWarnings_ok hread o.site
  obtain ⟨q, others, rfl, hq⟩ := readAllWithWarnings_cons_ok hall
  obtain rfl := Except.ok.inj (hq.symm.trans hp)
  have read : policiesOf (.str ns) o = (.ok (q :: others), { o with site := t }) := by
    change onSite (QuotaWarden.policiesOf o.policies (.str ns)) o = _
    rw [onSite_apply, QuotaWarden.policiesOf, Act.bind_apply, Act.lift_apply, hl]
    dsimp only
    rw [hall]
  obtain ⟨u, warned, journaled'⟩ := warnOfMany_apply (.str ns) q (others.length + 1) t
  have warns : onSite (warnOfMany (.str ns) q (others.length + 1)) { o with site := t } =
      (.ok (), { o with site := u }) := by
    rw [onSite_apply, warned]
  have sets : setEnforced q { o with site := u } =
      (.ok (), { o with site := u, enforced := Dictionary.set (.text ns) q o.enforced }) := by
    unfold setEnforced
    rw [hns]
    rfl
  refine ⟨u, journaled.trans journaled', ?_⟩
  rw [sync, Act.bind_of_ok read]
  dsimp only
  rw [Act.bind_of_ok warns, Act.bind_of_ok sets, onSite_map]

/-! ### The course of a sync -/

/-- The courses of reconciling a namespace: what is remembered for it, the calls, how it ends, and
what it counts. -/
inductive SyncCourse (ns : String) (o : Operator σ τ) : Option Policy → List ClusterCall →
    Except Fault (Option Verdict) → (Metrics → Metrics) → Prop
  | ungoverned : Ungoverned ns o.policies → SyncCourse ns o none [] (.ok none) id
  | governed {name : String} {p : Policy} {exchanges : List Exchange} {calls : List ClusterCall}
      {result : Except Fault Verdict} : Governs ns name p o.policies →
      ReconcileCourse options (.str ns) p
        ((ClusterCall.createEvent (startedEvent ns name)).after o.site.cluster) exchanges calls
        result →
      SyncCourse ns o (some p) (reconcileCalls ns name exchanges calls result) (result.map some)
        (countReconcile options ns exchanges result)

variable {options}

theorem sync_course (hns : ns ≠ "") (h : o.policies.index.Textual Enforceable)
    (hs : Obliging (.str ns) o.site.cluster) (hc : options.choose = selectVictim) :
    ∃ entry calls result count o', sync options (.str ns) o = (result, o') ∧
      Remembers ns entry o o' ∧ o'.site.cluster = afterAll calls o.site.cluster ∧
      o'.site.metrics = count o.site.metrics ∧
      SyncCourse options ns o entry calls result count := by
  have readable := readable_of_textual h ns
  rcases listIn_cases h readable with ⟨hl, hnone⟩ | ⟨x, r, name, p, hl, hg, hp, hread⟩
  · obtain ⟨o', e, remembers, hcluster, hmetrics⟩ := sync_ungoverned options hl
    exact ⟨none, [], _, id, o', e, remembers, hcluster, hmetrics, .ungoverned hnone⟩
  · obtain ⟨hat, writable⟩ := hg.of_textual h hns
    obtain ⟨t, ⟨notes, ht⟩, e⟩ := sync_governed options hl hp hread hat.ns
    have hcluster : t.cluster = o.site.cluster := by rw [ht]
    have hmetrics : t.metrics = o.site.metrics := by rw [ht]
    obtain ⟨exchanges, calls, result, u, e', hafter, hcount, hcourse⟩ :=
      reconcile_course (s := t) hat (by rwa [hcluster]) hc writable
    rw [e'] at e
    rw [hcluster] at hafter hcourse
    rw [hmetrics] at hcount
    exact ⟨some p, _, _, _, _, e, fun k => Dictionary.get?_set k _ p o.enforced, hafter, hcount,
      .governed hg hcourse⟩

omit [ClusterApi σ] [TimeScale τ] in
theorem Governs.unique {c : WatchCache} {name name' : String} {p p' : Policy}
    (h : Governs ns name p c) (h' : Governs ns name' p' c) : name' = name ∧ p' = p := by
  obtain ⟨_, x, ⟨hx, hfirst⟩, hp⟩ := h
  obtain ⟨_, x', ⟨hx', hfirst'⟩, hp'⟩ := h'
  obtain rfl : name' = name :=
    le_antisymm (hfirst' name (by simp [hx])) (hfirst name' (by simp [hx']))
  obtain rfl := Option.some.inj (hx'.symm.trans hx)
  exact ⟨rfl, Except.ok.inj (hp'.symm.trans hp)⟩

omit [ClusterApi σ] [TimeScale τ] in
theorem Governs.not_ungoverned {c : WatchCache} {name : String} {p : Policy}
    (h : Governs ns name p c) : ¬ Ungoverned ns c := by
  obtain ⟨synced, x, ⟨hx, _⟩, _⟩ := h
  exact fun hnone => absurd ((hnone synced name).symm.trans hx) (by simp)

omit [TimeScale τ] in
/-- `AlikeButEvents` clusters with the same cache of policies lead to the same course. -/
theorem SyncCourse.unique {σ' : Type} [ClusterApi σ'] {o' : Operator σ' τ}
    {entry entry' : Option Policy} {calls calls' : List ClusterCall}
    {result result' : Except Fault (Option Verdict)} {count count' : Metrics → Metrics}
    (h : SyncCourse options ns o entry calls result count)
    (h' : SyncCourse options ns o' entry' calls' result' count') (same : o'.policies = o.policies)
    (alike : AlikeButEvents o.site.cluster o'.site.cluster) :
    entry' = entry ∧ calls' = calls ∧ result' = result ∧ count' = count := by
  cases h with
  | ungoverned hnone =>
      cases h' with
      | ungoverned => exact ⟨rfl, rfl, rfl, rfl⟩
      | governed hg =>
          rw [same] at hg
          exact absurd hnone hg.not_ungoverned
  | governed hg hcourse =>
      cases h' with
      | ungoverned hnone =>
          rw [same] at hnone
          exact absurd hnone hg.not_ungoverned
      | governed hg' hcourse' =>
          rw [same] at hg'
          obtain ⟨rfl, rfl⟩ := hg.unique hg'
          obtain ⟨rfl, rfl, rfl⟩ := hcourse.unique hcourse' (alike.after _)
          exact ⟨rfl, rfl, rfl, rfl⟩

theorem syncCalls_course (hns : ns ≠ "") (h : o.policies.index.Textual Enforceable)
    (hs : Obliging (.str ns) o.site.cluster) (hc : options.choose = selectVictim) :
    ∃ entry result count o', sync options (.str ns) o = (result, o') ∧ Remembers ns entry o o' ∧
      o'.site.cluster = afterAll (syncCalls options (.str ns) o) o.site.cluster ∧
      o'.site.metrics = count o.site.metrics ∧
      SyncCourse options ns o entry (syncCalls options (.str ns) o) result count := by
  obtain ⟨entry, calls, result, count, o', e, remembers, hcluster, hmetrics, hcourse⟩ :=
    sync_course hns h hs hc
  have noted : AlikeButEvents o.site.cluster o.recorded.site.cluster :=
    Recorded.alikeButEvents _ _
  obtain ⟨_, made, _, _, u, e', _, hcluster', _, hcourse'⟩ :=
    sync_course (o := o.recorded) hns h (hs.of_alike noted) hc
  obtain ⟨_, rfl, _⟩ := hcourse.unique hcourse' rfl noted
  have calls_eq : syncCalls options (.str ns) o = made := by
    unfold syncCalls
    rw [e', hcluster', Recorded.afterAll_eq]
    rfl
  rw [calls_eq]
  exact ⟨entry, result, count, o', e, remembers, hcluster, hmetrics, hcourse⟩

/-! ### What a sync comes to -/

/-- How a status is published without a failure: it is written once, unless reading the policy
finds that it is gone. -/
inductive Published (ns name body : Json) (c : σ) (calls : List ClusterCall) : Prop
  | written {front back : List ClusterCall} {v : Json} :
      calls = front ++ .getPolicy ns name :: back →
      (ClusterCall.getPolicy ns name).reply (afterAll front c) = .ok v →
      calls.filterMap ClusterCall.write? = [(ns, name, body)] → Published ns name body c calls
  | gone {front back : List ClusterCall} {r : Refusal} :
      calls = front ++ .getPolicy ns name :: back →
      (ClusterCall.getPolicy ns name).reply (afterAll front c) = .error (.refused r) →
      r.isMissing = true → calls.filterMap ClusterCall.write? = [] → Published ns name body c calls

/-- What a sync of a namespace with a policy does, however it ends. -/
structure Reconciled (options : EnforcementOptions) (ns name : String) (p : Policy)
    (o o' : Operator σ τ) (calls : List ClusterCall) (result : Except Fault Verdict) : Prop where
  governs : Governs ns name p o.policies
  remembers : Remembers ns (some p) o o'
  /-- It tries to post an event at the start and one at the end. -/
  posted : calls.filterMap ClusterCall.event? = [startedEvent ns name, closingEvent ns name result]
  reconciles : o'.site.metrics.value (reconcileSeries ns) =
    o.site.metrics.value (reconcileSeries ns) + 1
  errors : o'.site.metrics.value (errorSeries ns) =
    o.site.metrics.value (errorSeries ns) + if failed result then 1 else 0
  others : ∀ r, r ≠ reconcileSeries ns → r ≠ errorSeries ns → r ≠ deleteSeries (.str ns) →
    o'.site.metrics.value r = o.site.metrics.value r
  /-- The answers to its calls decide how it ends. -/
  course : ∃ exchanges publishing, calls = reconcileCalls ns name exchanges publishing result ∧
    ReconcileCourse options (.str ns) p
      ((ClusterCall.createEvent (startedEvent ns name)).after o.site.cluster) exchanges publishing
      result

/-- What a sync of a namespace comes to, with the calls that it makes. -/
inductive SyncOutcome (options : EnforcementOptions) (ns : String) (o o' : Operator σ τ)
    (calls : List ClusterCall) : Except Fault (Option Verdict) → Prop
  /-- Without a policy the namespace is forgotten, and nothing else is done. -/
  | ungoverned : Ungoverned ns o.policies → Remembers ns none o o' → calls = [] →
      o'.site.metrics = o.site.metrics → SyncOutcome options ns o o' calls (.ok none)
  /-- The verdict is published and returned. -/
  | succeeded {name : String} {p : Policy} {v : Verdict} {status : Status} :
      Reconciled options ns name p o o' calls (.ok v) → v.status = .ok status →
      calls.filterMap ClusterCall.read? = [(.str ns, .str name)] →
      Published (.str ns) (.str name) (statusBody status) o.site.cluster calls →
      SyncOutcome options ns o o' calls (.ok (some v))
  /-- The enforcement failed, or the status was not written. -/
  | failed {name : String} {p : Policy} {f : Fault} :
      Reconciled options ns name p o o' calls (.error f) →
      (f.kind = .enforcement ∧ calls.filterMap ClusterCall.read? = [] ∧
          calls.filterMap ClusterCall.write? = [] ∨
        f.kind = .statusUpdate ∧ calls.filterMap ClusterCall.read? = [(.str ns, .str name)]) →
      f.ns? = some (.str ns) → SyncOutcome options ns o o' calls (.error f)

section

variable {o' : Operator σ τ} {name : String} {p : Policy} {exchanges : List Exchange}
  {publishing : List ClusterCall} {result : Except Fault Verdict}

omit [TimeScale τ] in
/-- What `SyncOutcome` says of a `ReconcileCourse` under the governing policy. -/
theorem Reconciled.of_course (hg : Governs ns name p o.policies)
    (remembers : Remembers ns (some p) o o')
    (hmetrics : o'.site.metrics = countReconcile options ns exchanges result o.site.metrics)
    (hcourse : ReconcileCourse options (.str ns) p
      ((ClusterCall.createEvent (startedEvent ns name)).after o.site.cluster) exchanges publishing
      result) :
    Reconciled options ns name p o o' (reconcileCalls ns name exchanges publishing result)
      result := by
  have counted : ∀ r, r ≠ deleteSeries (.str ns) → o'.site.metrics.value r =
      o.site.metrics.value r + (if r = reconcileSeries ns then 1 else 0) +
        if r = errorSeries ns ∧ failed result = true then 1 else 0 := by
    intro r hr
    rw [hmetrics, countReconcile, Metrics.value_reconciled, Metrics.value_countDelete_of_ne _ hr]
  refine ⟨hg, remembers, hcourse.posted ns name, ?_, ?_, ?_, exchanges, publishing, rfl, hcourse⟩
  · rw [counted _ (by simp [reconcileSeries, deleteSeries])]
    simp [reconcileSeries, errorSeries]
  · rw [counted _ (by simp [errorSeries, deleteSeries])]
    simp [reconcileSeries, errorSeries]
  · intro r hr hr' hr''
    rw [counted r hr'', if_neg hr, if_neg fun h => hr' h.1]
    rfl

omit [TimeScale τ] in
theorem Published.of_course {status : Status}
    (h : StatusCourse (.str ns) (.str name) status
      (afterExchanges exchanges ((ClusterCall.createEvent (startedEvent ns name)).after
        o.site.cluster)) publishing (.ok ())) :
    Published (.str ns) (.str name) (statusBody status) o.site.cluster
      (reconcileCalls ns name exchanges publishing result) := by
  cases h with
  | gone r hread hr => exact .gone (reconcileCalls_split _ _) hread hr writes_reconcileCalls
  | written v w hread _ => exact .written (reconcileCalls_split _ _) hread writes_reconcileCalls

end

omit [TimeScale τ] in
/-- Every course has a `SyncOutcome`. -/
theorem SyncCourse.outcome {o' : Operator σ τ} (hns : ns ≠ "")
    (h : o.policies.index.Textual Enforceable) {entry : Option Policy} {calls : List ClusterCall}
    {result : Except Fault (Option Verdict)} {count : Metrics → Metrics}
    (hcourse : SyncCourse options ns o entry calls result count)
    (remembers : Remembers ns entry o o') (hmetrics : o'.site.metrics = count o.site.metrics) :
    SyncOutcome options ns o o' calls result := by
  cases hcourse with
  | ungoverned hnone => exact .ungoverned hnone remembers rfl hmetrics
  | @governed name p exchanges publishing result hg course =>
      have reconciled := Reconciled.of_course hg remembers hmetrics course
      have named : p.name = .str name := (hg.of_textual h hns).1.name
      cases result with
      | ok v =>
          obtain ⟨status, hstatus, published⟩ := course.returned rfl
          rw [named] at published
          refine .succeeded reconciled hstatus ?_ (.of_course published)
          rw [reads_reconcileCalls]
          exact published.kinds.2
      | error f =>
          obtain ⟨kind, inNamespace⟩ := course.fault_spec rfl
          refine .failed reconciled ?_ inNamespace
          rw [reads_reconcileCalls, writes_reconcileCalls, ← named]
          refine kind.imp_left ?_
          rintro ⟨inEnforcement, rfl⟩
          exact ⟨inEnforcement, rfl, rfl⟩

/-- **Reconciling a namespace comes to one of three outcomes.** Whatever the calls are answered, as
long as each is answered or refused, a sync does what `SyncOutcome` says, with the calls of
`syncCalls` and no others. Which outcome it is, the calls and what is given depend on the policies
and on the answers to the calls that post no event: how events are taken does not matter. -/
theorem sync_outcome (hns : ns ≠ "") (h : o.policies.index.Textual Enforceable)
    (hs : Obliging (.str ns) o.site.cluster) (hc : options.choose = selectVictim) :
    let calls := syncCalls options (.str ns) o
    ∃ result o', sync options (.str ns) o = (result, o') ∧
      o'.site.cluster = afterAll calls o.site.cluster ∧ SyncOutcome options ns o o' calls result ∧
      ∀ {σ' : Type} [ClusterApi σ'] (u : Operator σ' τ), u.policies = o.policies →
        AlikeButEvents o.site.cluster u.site.cluster →
        syncCalls options (.str ns) u = calls ∧ (sync options (.str ns) u).1 = result := by
  obtain ⟨entry, result, count, o', e, remembers, hcluster, hmetrics, hcourse⟩ :=
    syncCalls_course hns h hs hc
  refine ⟨result, o', e, hcluster, hcourse.outcome hns h remembers hmetrics, ?_⟩
  intro σ' _ u same alike
  obtain ⟨_, _, _, _, e', _, _, _, hcourse'⟩ :=
    syncCalls_course (o := u) hns (by rwa [same]) (hs.of_alike alike) hc
  obtain ⟨_, calls, given, _⟩ := hcourse.unique hcourse' same alike
  exact ⟨calls, by rw [e', given]⟩

/-- A cluster that shows some pods again and again, and lets events and statuses be written or not.
-/
structure Fixed where
  pods : List Pod
  takesEvents : Bool
  takesStatus : Bool

namespace Fixed

/-- A call is not allowed. -/
def forbidden : Fault := .refused ⟨.int 403, .str "Forbidden"⟩

instance : ClusterApi Fixed where
  listPods _ c := (.ok c.pods, c)
  listAllPods := Act.fail forbidden
  listNamespaces := Act.fail forbidden
  listPolicies := Act.fail forbidden
  deletePod _ _ _ := Act.fail forbidden
  getPolicy _ _ := pure (.obj [])
  patchStatus _ _ body c := (if c.takesStatus then .ok body else .error forbidden, c)
  createEvent e c := (if c.takesEvents then .ok e else .error forbidden, c)

theorem afterAll_eq (calls : List ClusterCall) (c : Fixed) : afterAll calls c = c := by
  induction calls generalizing c with
  | nil => rfl
  | cons call r ih =>
      have kept : call.after c = c := by cases call <;> rfl
      exact (ih _).trans kept

theorem obliging {ns : Json} {c : Fixed} (h : Moderate c.pods)
    (hm : ∀ q ∈ livePods c.pods, q.metadata ≠ none) : Obliging ns c := by
  refine ⟨fun calls call f he hr => ?_, fun calls pods hl => ?_⟩
  · rw [afterAll_eq] at hr
    cases call with
    | createEvent e => cases he
    | patchStatus ns name body =>
        change (if c.takesStatus then Except.ok body else .error forbidden) = _ at hr
        split at hr <;> cases hr
        exact ⟨_, rfl⟩
    | _ => cases hr <;> exact ⟨_, rfl⟩
  · rw [afterAll_eq] at hl
    cases hl
    exact ⟨h, hm⟩

end Fixed

/-- An operator that has listed a policy of three pods. -/
def listing (c : Fixed) : Operator Fixed Float :=
  ((host .policies).relist (.ok (.list [quota] (some "1"))) (start c)).2

theorem quota_enforceable : Enforceable quota :=
  ⟨"team-a", "quota", ⟨.str "quota", .str "team-a", 3, 0, 0⟩, ⟨.str "1", rfl⟩, by decide, by decide,
    rfl, Policy.writable_of_amounts (Or.inr (Or.inl rfl)) (Or.inr (Or.inl rfl))⟩

theorem listing_textual (c : Fixed) : (listing c).policies.index.Textual Enforceable := by
  have located : WatchCache.Located Enforceable := fun _ ⟨ns, name, _, hat, _⟩ => ⟨ns, name, hat⟩
  have lists : WatchCache.Lists Enforceable (.ok (.list [quota] (some "1"))) := by
    rintro _ _ ⟨⟩ ⟨⟩ x hx
    rw [List.mem_singleton.mp hx]
    exact quota_enforceable
  cases hes : WatchCache.listed (.ok (.list [quota] (some "1"))) with
  | error f => cases hes
  | ok es =>
      have held : (listing c).policies.index = Index.ofList es :=
        congrArg WatchCache.index ((host_quiet .policies).relist hes (start c))
      rw [held]
      exact WatchCache.listed_textual located lists hes

/-- The status of a policy cannot be written: the sync fails, and whether events are taken makes no
difference. -/
theorem sync_outcome_unwritten :
    let o := listing ⟨twoPods, false, false⟩
    let u := listing ⟨twoPods, true, false⟩
    let ns : Json := .str "team-a"
    o.policies.index.Textual Enforceable ∧ Obliging ns o.site.cluster ∧ ∃ result o',
      sync .standard ns o = (result, o') ∧
      SyncOutcome .standard "team-a" o o' (syncCalls .standard ns o) result ∧
      o'.site.metrics.value (errorSeries "team-a") = 1 ∧
      syncCalls .standard ns u = syncCalls .standard ns o ∧ (sync .standard ns u).1 = result := by
  intro o u ns
  obtain ⟨moderate, metadata⟩ := stubborn_readable 0 twoPods rfl
  have obliging : Obliging ns o.site.cluster := Fixed.obliging moderate metadata
  have alike : AlikeButEvents o.site.cluster u.site.cluster := by
    intro calls call he
    rw [Fixed.afterAll_eq, Fixed.afterAll_eq]
    cases call with
    | createEvent e => cases he
    | _ => rfl
  have choice : EnforcementOptions.standard.choose = selectVictim := rfl
  obtain ⟨result, o', e, _, outcome, determined⟩ :=
    sync_outcome (by decide) (listing_textual _) obliging choice
  obtain ⟨calls, given⟩ := determined u rfl alike
  have failing : (sync .standard ns o).2.site.metrics.value (errorSeries "team-a") = 1 := by
    decide +kernel
  rw [e] at failing
  exact ⟨listing_textual _, obliging, result, o', e, outcome, failing, calls, given⟩

end Operator

end QuotaWarden
