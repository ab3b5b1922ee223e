import QuotaWarden.Proofs.CacheReads
import QuotaWarden.Proofs.SyncOutcomes

/-! # A reconcile queues its namespace again

A reconcile writes the status of the policy, so the policy changes, and its cache is told. Every
event about a policy queues the namespace, so the namespace of a status that was written is queued
for that status: where nothing else happens, reconciling never comes to an end.

* `Calm` are the clusters that are left alone; `roundCalls` are the calls of a reconcile there.
* `ApiObject.Echoes` relates a policy to what is shown of it after its status was written. Which
  version and which status it carries does not matter.
* `Steady` is the state in front of a round, `Operator.round` the round: the pending namespace is
  reconciled, and then the event arrives. A round ends in front of another one (`Steady.round`).
* `Operator.rounds_never_rest` is the main result. -/

namespace QuotaWarden

/-! ### A queue with one key -/

namespace WorkQueue

variable {κ τ : Type} [BEq κ] {q : WorkQueue κ τ} {k : κ}

/-- Nothing is queued or pending, and the queue serves. -/
structure Idle (q : WorkQueue κ τ) : Prop where
  queue : q.queue = []
  drained : q.Drained
  serving : q.shuttingDown = false

/-- One key is queued, and nothing else is pending. -/
structure Only (k : κ) (q : WorkQueue κ τ) : Prop where
  queue : q.queue = [k]
  dirty : q.dirty = [k]
  processing : q.processing = []
  readyAt : q.readyAt = []
  serving : q.shuttingDown = false

theorem Idle.add (h : q.Idle) (k : κ) : (q.add k).Only k := by
  obtain ⟨hq, ⟨hd, hr, hp⟩, hs⟩ := h
  have e : q.add k = { q with dirty := [k], queue := [k] } := by
    simp [WorkQueue.add, hs, hd, hp, hq, insertKey]
  rw [e]
  exact ⟨rfl, rfl, hp, hr, hs⟩

variable [EquivBEq κ]

/-- `take` gives `k`; after `forget` and `release` the queue is `Idle`. -/
theorem Only.take (h : q.Only k) :
    ∃ q', q.take = (.key k, q') ∧ ((q'.forget k).release k).Idle ∧
      ((q'.forget k).release k).failureCount k = 0 := by
  obtain ⟨hq, hd, hp, hr, hs⟩ := h
  have e : q.take = (.key k, { q with queue := [], processing := [k], dirty := [] }) := by
    simp [WorkQueue.take, hs, hq, hd, hp, insertKey, removeKey]
  refine ⟨_, e, ⟨?_, ⟨?_, ?_, ?_⟩, ?_⟩, ?_⟩
  all_goals simp [release, forget, removeKey, failureCount, hr, hs, Dictionary.get?_erase]

end WorkQueue

/-! ### A cluster that is left alone -/

section

variable {σ τ : Type} [ClusterApi σ] {ns name : String} {p : Policy} {pods : List Pod} {c : σ}

/-- The calls of a reconcile that evicts nothing. -/
def ClusterCall.IsMild (ns name : String) (call : ClusterCall) : Prop :=
  call.Within ns (some (.str name)) ∧ ∀ podNs podName grace, call ≠ .deletePod podNs podName grace

/-- A cluster shows the same pods in a namespace again and again, and a policy there can be read and
its status written, as long as no pod is deleted. -/
structure Calm (ns name : String) (pods : List Pod) (c : σ) : Prop where
  listed : ∀ calls, (∀ call ∈ calls, call.IsMild ns name) →
    (ClusterCall.listPods (.str ns)).reply (afterAll calls c) = .ok pods
  given : ∀ calls, (∀ call ∈ calls, call.IsMild ns name) →
    ∃ v, (ClusterCall.getPolicy (.str ns) (.str name)).reply (afterAll calls c) = .ok v
  written : ∀ calls, (∀ call ∈ calls, call.IsMild ns name) → ∀ body,
    ∃ w, (ClusterCall.patchStatus (.str ns) (.str name) body).reply (afterAll calls c) = .ok w

theorem Calm.afterAll (h : Calm ns name pods c) {calls : List ClusterCall}
    (hm : ∀ call ∈ calls, call.IsMild ns name) :
    Calm ns name pods (QuotaWarden.afterAll calls c) := by
  have all : ∀ later : List ClusterCall, (∀ call ∈ later, call.IsMild ns name) →
      ∀ call ∈ calls ++ later, call.IsMild ns name := fun later hl call hc =>
    (List.mem_append.mp hc).elim (hm call) (hl call)
  refine ⟨fun later hl => ?_, fun later hl => ?_, fun later hl => ?_⟩
  · rw [← afterAll_append]
    exact h.listed _ (all later hl)
  · rw [← afterAll_append]
    exact h.given _ (all later hl)
  · rw [← afterAll_append]
    exact h.written _ (all later hl)

theorem Calm.after (h : Calm ns name pods c) {call : ClusterCall} (hm : call.IsMild ns name) :
    Calm ns name pods (call.after c) := by
  have once := h.afterAll (List.forall_mem_singleton.mpr hm)
  exact once

/-- The calls of a reconcile of pods that respect the policy. -/
def roundCalls (ns name : String) (pods : List Pod) (v : Verdict) (status : Status) :
    List ClusterCall :=
  reconcileCalls ns name [.listed (.str ns) (.ok pods)]
    [.getPolicy (.str ns) (.str name), .patchStatus (.str ns) (.str name) (statusBody status)]
    (.ok v)

variable {v : Verdict} {status : Status}

theorem roundCalls_mild (ns name : String) (pods : List Pod) (v : Verdict) (status : Status) :
    ∀ call ∈ roundCalls ns name pods v status, call.IsMild ns name := by
  intro call hc
  have mem : call ∈ [.createEvent (startedEvent ns name), .listPods (.str ns),
      .getPolicy (.str ns) (.str name), .patchStatus (.str ns) (.str name) (statusBody status),
      .createEvent (closingEvent ns name (.ok v))] := hc
  simp only [List.mem_cons, List.not_mem_nil, or_false] at mem
  rcases mem with rfl | rfl | rfl | rfl | rfl
  · exact ⟨rfl, nofun⟩
  · exact ⟨rfl, nofun⟩
  · exact ⟨⟨rfl, rfl⟩, nofun⟩
  · exact ⟨⟨rfl, rfl⟩, nofun⟩
  · exact ⟨rfl, nofun⟩

/-- Pods respect a policy: the verdict on them, and the status that tells of it. -/
structure Respects (p : Policy) (pods : List Pod) (v : Verdict) (status : Status) : Prop where
  verdict : verdictOn p pods = .ok v
  status : v.status = .ok status
  unviolated : v.violated = false

theorem Respects.of_moderate (hp : p.Writable) (hpods : Moderate pods)
    (hok : ∀ v, verdictOn p pods = .ok v → v.violated = false) :
    ∃ v status, Respects p pods v status := by
  obtain ⟨v, hv, _, _⟩ := verdictOn_ok hpods hp
  obtain ⟨status, hstatus⟩ := Verdict.status_ok hpods hp hv
  exact ⟨v, status, hv, hstatus, hok v hv⟩

variable [TimeScale τ] (o : EnforcementOptions) {s : Site σ τ}

open Operator

theorem enforceAndPublish_calm (hname : p.name = .str name) (hp : Respects p pods v status)
    (hs : Calm ns name pods s.cluster) :
    enforceAndPublish o (.str ns) p s = (.ok v, ((s.after (.listPods (.str ns))).after
      (.getPolicy (.str ns) (.str name))).after
      (.patchStatus (.str ns) (.str name) (statusBody status))) := by
  have list : (ClusterCall.listPods (.str ns)).IsMild ns name := ⟨rfl, nofun⟩
  have get : (ClusterCall.getPolicy (.str ns) (.str name)).IsMild ns name := ⟨⟨rfl, rfl⟩, nofun⟩
  have listed := hs.listed [] nofun
  obtain ⟨w, given⟩ := hs.given [_] (List.forall_mem_singleton.mpr list)
  obtain ⟨w', written⟩ := hs.written [_, _]
    (List.forall_mem_cons.mpr ⟨list, List.forall_mem_singleton.mpr get⟩) (statusBody status)
  have enforced : enforce o (.str ns) p s = (.ok v, s.after (.listPods (.str ns))) :=
    enforceRounds_compliant o _ _ _ (listPods_apply (a := .ok pods) listed) hp.verdict
      hp.unviolated
  have published := publishStatus_written (s := s.after (.listPods (.str ns))) given written
  unfold enforceAndPublish
  rw [Act.bind_of_ok enforced, Act.bind_apply, Act.lift_apply, hp.status, hname]
  exact Act.bind_of_ok published

theorem reconcile_calm (hat : p.IsAt ns name) (hp : Respects p pods v status)
    (hs : Calm ns name pods s.cluster) :
    ∃ t, reconcile o (.str ns) p s = (.ok v, t) ∧
      t.cluster = afterAll (roundCalls ns name pods v status) s.cluster ∧
      t.metrics = s.metrics.reconciled ns false := by
  obtain ⟨s₁, hcluster₁, hmetrics₁, framed⟩ := reconcile_framed (o := o) hat s
  have calm : Calm ns name pods s₁.cluster := by
    rw [hcluster₁]
    exact hs.after ⟨rfl, nofun⟩
  obtain ⟨t, done, hcluster, hmetrics⟩ :=
    framed _ _ (enforceAndPublish_calm o hat.name hp calm) nofun
  refine ⟨t, done, ?_, ?_⟩
  · rw [hcluster]
    dsimp only [Site.after]
    rw [hcluster₁]
    rfl
  · rw [hmetrics]
    dsimp only [Site.after]
    rw [hmetrics₁]
    rfl

end

/-! ### Objects that are shown again -/

/-- The fields of an untyped object. -/
def ApiObject.fields? : ApiObject → Option (List (String × Json))
  | .untyped (.obj fields) => some fields
  | .untypedList fields _ => some fields
  | _ => none

/-- Fields of an object and what a write of its status makes of them: the version and the status
may differ. -/
structure Restated (fields fields' : List (String × Json)) : Prop where
  metadata : ∃ inner inner', field? "metadata" fields = some (.obj inner) ∧
    field? "metadata" fields' = some (.obj inner') ∧
    ∀ name, name ≠ "resourceVersion" → field? name inner' = field? name inner
  others : ∀ name, name ≠ "metadata" → name ≠ "status" → field? name fields' = field? name fields

/-- An object is shown again after its status was written. -/
def ApiObject.Echoes (x y : ApiObject) : Prop :=
  ∃ fields fields', x.fields? = some fields ∧ y.fields? = some fields' ∧ Restated fields fields'

theorem Restated.ofJson {fields fields' : List (String × Json)} (h : Restated fields fields') :
    Policy.ofJson (.obj fields') = Policy.ofJson (.obj fields) := by
  obtain ⟨inner, inner', hi, hi', same⟩ := h.metadata
  have given : ∀ {α : Type} (x : α) (f : α → Act (List String) Policy),
      (Act.lift (.ok x) >>= f) = f x := fun _ _ => rfl
  simp only [Policy.ofJson, mapping, given, hi, hi', Option.getD_some, same "name" (by decide),
    same "namespace" (by decide), h.others "spec" (by decide) (by decide)]

theorem untypedMetadata_of_obj {fields inner : List (String × Json)}
    (h : field? "metadata" fields = some (.obj inner)) :
    ApiObject.untypedMetadata fields = .ok inner := by
  cases inner <;> simp [ApiObject.untypedMetadata, h, Json.ofOption, Json.orElse, Json.truthy]

theorem Restated.identify {fields fields' : List (String × Json)} (h : Restated fields fields')
    {m : ObjectMeta} (hm : ApiObject.identify fields = .ok m) :
    ∃ version, ApiObject.identify fields' = .ok ⟨m.ns, m.name, version⟩ := by
  obtain ⟨inner, inner', hi, hi', same⟩ := h.metadata
  unfold ApiObject.identify at hm ⊢
  rw [untypedMetadata_of_obj hi] at hm
  obtain rfl := Except.ok.inj hm
  refine ⟨ApiObject.given "resourceVersion" inner', ?_⟩
  rw [untypedMetadata_of_obj hi']
  simp only [ApiObject.given, bind, Except.bind, pure, Except.pure, same "name" (by decide),
    same "namespace" (by decide)]

namespace ApiObject

variable {x y : ApiObject}

theorem of_fields {fields : List (String × Json)} (h : x.fields? = some fields) :
    x.policy? = (Policy.ofJson (.obj fields) []).1 ∧ x.metadata = identify fields := by
  cases x with
  | untyped v =>
      cases v with
      | obj fields => cases h; exact ⟨rfl, rfl⟩
      | _ => cases h
  | untypedList fields items => cases h; exact ⟨rfl, rfl⟩
  | _ => cases h

/-- What echoes an object reads as the same policy. -/
theorem Echoes.policy? (h : x.Echoes y) : y.policy? = x.policy? := by
  obtain ⟨fields, fields', hx, hy, restated⟩ := h
  rw [(of_fields hx).1, (of_fields hy).1, restated.ofJson]

theorem Echoes.isAt (h : x.Echoes y) {ns name : String} (hat : x.IsAt ns name) :
    y.IsAt ns name := by
  obtain ⟨fields, fields', hx, hy, restated⟩ := h
  obtain ⟨version, hm⟩ := hat
  rw [(of_fields hx).2] at hm
  obtain ⟨version', hm'⟩ := restated.identify hm
  exact ⟨version', (of_fields hy).2.trans hm'⟩

/-- An untyped object with another version and another status. -/
def restated (version status : Json) : ApiObject → ApiObject
  | untyped (.obj fields) =>
    match field? "metadata" fields with
    | some (.obj inner) =>
      untyped (.obj (setField "status" status
        (setField "metadata" (.obj (setField "resourceVersion" version inner)) fields)))
    | _ => untyped (.obj fields)
  | x => x

theorem echoes_restated {fields inner : List (String × Json)}
    (h : field? "metadata" fields = some (.obj inner)) (version status : Json) :
    (untyped (.obj fields)).Echoes ((untyped (.obj fields)).restated version status) := by
  simp only [restated, h]
  refine ⟨fields, _, rfl, rfl, ⟨inner, setField "resourceVersion" version inner, h, ?_, ?_⟩, ?_⟩
  · rw [setField, field?, Dictionary.get?_set_of_ne (by decide)]
    exact Dictionary.get?_set_self _ _ _
  · intro name hname
    exact Dictionary.get?_set_of_ne (by simpa using hname) _ _
  · intro name hm hs
    rw [setField, field?, Dictionary.get?_set_of_ne (by simpa using hs)]
    exact Dictionary.get?_set_of_ne (by simpa using hm) _ _

end ApiObject

/-! ### Rounds -/

namespace Operator

variable {σ τ : Type} {ns name : String} {p : Policy} {pods : List Pod} {v : Verdict}
  {status : Status} {o : Operator σ τ} {x y : ApiObject}

theorem apply_modified (hserving : o.queue.shuttingDown = false)
    (h : o.policies.index.Textual ApiObject.HasTexts) (hat : y.IsAt ns name) (hns : ns ≠ "") :
    ∃ i, ((host .policies).apply .modified y o).2 =
        { o with policies := { o.policies with index := i }, queue := o.queue.add (.text ns) } ∧
      i.Textual ApiObject.HasTexts ∧ ∀ j, i.get? j =
        if j == (⟨.text ns, .text name⟩ : ObjectKey) then some y else o.policies.index.get? j := by
  obtain ⟨i, hi, htext, hget⟩ := WatchCache.apply_located .modified ⟨ns, name, hat⟩ hat h
  refine ⟨i, ?_, htext, hget⟩
  obtain ⟨version, hm⟩ := hat
  let stored := (host .policies).setCache { o.policies with index := i } o
  have noted : noteChange .policies ⟨.modified, y⟩ stored = (.ok (), stored.enqueue (.text ns)) :=
    noteChange_apply (show stored.queue.shuttingDown = false from hserving) hm rfl hns
  rw [CacheHost.apply_applied (h := host .policies) hi]
  change (host .policies).tell ⟨.modified, y⟩ stored (noteChange .policies) = _
  unfold CacheHost.tell
  rw [noted]
  rfl

variable [ClusterApi σ] [TimeScale τ] (options : EnforcementOptions)

/-- One namespace is pending, its policies can be read, one of them governs it, and the cluster is
left alone. -/
structure Steady (ns name : String) (p : Policy) (pods : List Pod) (o : Operator σ τ) : Prop where
  pending : o.queue.Only (.text ns)
  textual : o.policies.index.Textual ApiObject.HasTexts
  readable : Readable ns o.policies.index
  governs : Governs ns name p o.policies
  calm : Calm ns name pods o.site.cluster

theorem sync_calm (hat : p.IsAt ns name) (hp : Respects p pods v status)
    (htext : o.policies.index.Textual ApiObject.HasTexts) (hread : Readable ns o.policies.index)
    (hg : Governs ns name p o.policies) (hs : Calm ns name pods o.site.cluster) :
    ∃ o', sync options (.str ns) o = (.ok (some v), o') ∧
      o'.site.cluster = afterAll (roundCalls ns name pods v status) o.site.cluster ∧
      o'.site.metrics = o.site.metrics.reconciled ns false ∧ o'.queue = o.queue ∧
      o'.policies = o.policies := by
  rcases listIn_cases htext hread with ⟨_, hnone⟩ | ⟨z, r, name', q, hl, hg', hz, hall⟩
  · exact absurd hnone hg.not_ungoverned
  · obtain ⟨rfl, rfl⟩ := hg.unique hg'
    obtain ⟨t, ⟨notes, ht⟩, e⟩ := sync_governed options hl hz hall hat.ns
    obtain ⟨u, reconciled, hcluster, hmetrics⟩ :=
      reconcile_calm options (s := t) hat hp (by rwa [ht])
    rw [reconciled] at e
    rw [ht] at hcluster hmetrics
    exact ⟨_, e, hcluster, hmetrics, rfl, rfl⟩

theorem processNext_steady (hat : p.IsAt ns name) (hp : Respects p pods v status)
    (h : Steady ns name p pods o) :
    ∃ o', processNext options o = (.key (.text ns), o') ∧ o'.queue.Idle ∧
      o'.queue.failureCount (.text ns) = 0 ∧ o'.policies = o.policies ∧
      o'.site.cluster = afterAll (roundCalls ns name pods v status) o.site.cluster ∧
      o'.site.metrics = o.site.metrics.reconciled ns false := by
  obtain ⟨q, taken, idle, forgotten⟩ := h.pending.take
  obtain ⟨o', synced, hcluster, hmetrics, hqueue, hpolicies⟩ :=
    sync_calm (o := { o with queue := q }) options hat hp h.textual h.readable h.governs h.calm
  have served : processNext options o =
      (.key (.text ns), { o' with queue := (q.forget (.text ns)).release (.text ns) }) := by
    unfold processNext
    rw [taken]
    dsimp only
    rw [processKey, show Key.toJson (.text ns) = .str ns from rfl, synced]
    dsimp only
    rw [hqueue]
  exact ⟨_, served, idle, forgotten, hpolicies, hcluster, hmetrics⟩

omit [ClusterApi σ] [TimeScale τ] in
theorem Governs.stored {c : WatchCache} {i : Index} (h : Governs ns name p c)
    (hy : y.policy? = .ok p) (hget : ∀ j, i.get? j =
      if j == (⟨.text ns, .text name⟩ : ObjectKey) then some y else c.index.get? j) :
    Governs ns name p { c with index := i } := by
  obtain ⟨synced, x, ⟨hx, hfirst⟩, _⟩ := h
  refine ⟨synced, y, ⟨?_, fun other hother => ?_⟩, hy⟩
  · rw [hget, if_pos (BEq.refl _)]
  · rw [hget] at hother
    split at hother
    · next same =>
      have named := Key.text_beq_iff.mp (ObjectKey.beq_iff.mp same).2
      exact (Key.text.inj named).le
    · exact hfirst other hother

omit [ClusterApi σ] [TimeScale τ] in
theorem Readable.stored {i i' : Index} (h : Readable ns i) {k : ObjectKey}
    (hy : y.policy? = .ok p)
    (hget : ∀ j, i'.get? j = if j == k then some y else i.get? j) : Readable ns i' := by
  intro other z hz
  rw [hget] at hz
  split at hz
  · obtain rfl := Option.some.inj hz
    exact ⟨p, hy⟩
  · exact h other z hz

/-- The next namespace is processed, and after that an event about a policy arrives. -/
def round (o : Operator σ τ) (y : ApiObject) : Operator σ τ :=
  ((host .policies).apply .modified y (processNext options o).2).2

/-- A round leaves a `Steady` operator. -/
theorem Steady.round (hns : ns ≠ "") (hat : p.IsAt ns name) (hp : Respects p pods v status)
    (h : Steady ns name p pods o) (hy : y.IsAt ns name) (hread : y.policy? = .ok p) :
    let o' := Operator.round options o y
    Steady ns name p pods o' ∧
      o'.site.cluster = afterAll (roundCalls ns name pods v status) o.site.cluster ∧
      o'.site.metrics = o.site.metrics.reconciled ns false := by
  intro o'
  obtain ⟨u, processed, idle, _, hpolicies, hcluster, hmetrics⟩ :=
    processNext_steady options hat hp h
  obtain ⟨i, stored, htext, hget⟩ :=
    apply_modified idle.serving (by rw [hpolicies]; exact h.textual) hy hns
  have e : o' = { u with
      policies := { u.policies with index := i }, queue := u.queue.add (.text ns) } := by
    rw [← stored]
    exact congrArg (fun t => ((host .policies).apply .modified y t.2).2) processed
  rw [hpolicies] at hget e
  rw [e]
  refine ⟨⟨idle.add _, htext, h.readable.stored hread hget, h.governs.stored hread hget, ?_⟩,
    hcluster, hmetrics⟩
  dsimp only
  rw [hcluster]
  exact h.calm.afterAll (roundCalls_mild ns name pods v status)

/-- Rounds leave a `Steady` operator, by induction on the events. -/
theorem Steady.rounds (hns : ns ≠ "") (hat : p.IsAt ns name) (hp : Respects p pods v status)
    (h : Steady ns name p pods o) {ys : List ApiObject}
    (hy : ∀ y ∈ ys, y.IsAt ns name ∧ y.policy? = .ok p) :
    let o' := ys.foldl (Operator.round options) o
    Steady ns name p pods o' ∧
      o'.site.cluster = afterAll
        (List.replicate ys.length (roundCalls ns name pods v status)).flatten o.site.cluster ∧
      o'.site.metrics = (Metrics.reconciled ns false)^[ys.length] o.site.metrics := by
  induction ys generalizing o with
  | nil => exact ⟨h, rfl, rfl⟩
  | cons y r ih =>
      rw [List.forall_mem_cons] at hy
      obtain ⟨steady, hcluster, hmetrics⟩ := h.round options hns hat hp hy.1.1 hy.1.2
      obtain ⟨steady', hcluster', hmetrics'⟩ := ih steady hy.2
      refine ⟨steady', ?_, ?_⟩
      · rw [List.length_cons, List.replicate_succ, List.flatten_cons, afterAll_append, ← hcluster]
        exact hcluster'
      · rw [List.length_cons, Function.iterate_succ_apply, ← hmetrics]
        exact hmetrics'

/-- **Reconciling triggers itself.** One namespace is pending, its pods respect its policy, and
nothing happens but that each reconcile is followed by the event about the status that it wrote.
Then processing the namespace leaves nothing pending, delayed or counted as a failure, and the event
queues it again, in every round. So each round makes the calls of a reconcile, the patch of the
status among them, and counts one. -/
theorem rounds_never_rest (hns : ns ≠ "") (hname : name ≠ "") (hp : p.Writable)
    (hpods : Moderate pods) (hok : ∀ v, verdictOn p pods = .ok v → v.violated = false)
    (h : Steady ns name p pods o)
    (hx : o.policies.index.get? ⟨.text ns, .text name⟩ = some x) :
    ∃ v status, Respects p pods v status ∧
      ∀ ys : List ApiObject, (∀ y ∈ ys, x.Echoes y) →
      let o' := ys.foldl (Operator.round options) o
      o'.queue.Only (.text ns) ∧
      (∃ t, processNext options o' = (.key (.text ns), t) ∧ t.queue.Idle ∧
        t.queue.failureCount (.text ns) = 0) ∧
      o'.site.cluster = afterAll
        (List.replicate ys.length (roundCalls ns name pods v status)).flatten o.site.cluster ∧
      ∀ r, o'.site.metrics.value r =
        o.site.metrics.value r + if r = reconcileSeries ns then ys.length else 0 := by
  obtain ⟨v, status, respects⟩ := Respects.of_moderate hp hpods hok
  have hat : p.IsAt ns name := h.governs.isAt h.textual hns hname
  obtain ⟨_, z, ⟨hz, _⟩, hread⟩ := h.governs
  obtain rfl := Option.some.inj (hz.symm.trans hx)
  have placed : z.IsAt ns name := (h.textual.isAt_of_get? hz).1
  refine ⟨v, status, respects, fun ys hy => ?_⟩
  obtain ⟨steady, hcluster, hmetrics⟩ := h.rounds options hns hat respects
    fun y hm => ⟨(hy y hm).isAt placed, (hy y hm).policy?.trans hread⟩
  obtain ⟨t, processed, idle, forgotten, _⟩ := processNext_steady options hat respects steady
  refine ⟨steady.pending, ⟨t, processed, idle, forgotten⟩, hcluster, fun r => ?_⟩
  rw [hmetrics, Metrics.value_reconciled_iterate]

/-- The policy of three pods. -/
def atMostThree : Policy := ⟨.str "quota", .str "team-a", 3, 0, 0⟩

theorem atMostThree_writable : atMostThree.Writable :=
  Policy.writable_of_amounts (Or.inr (Or.inl rfl)) (Or.inr (Or.inl rfl))

theorem twoPods_compliant {v : Verdict} (hv : verdictOn atMostThree twoPods = .ok v) :
    v.violated = false := by
  have h : (verdictOn atMostThree twoPods).toOption.all (!·.violated) = true := by decide +kernel
  rw [hv] at h
  simpa [Except.toOption] using h

theorem listing_steady :
    Steady "team-a" "quota" atMostThree twoPods (listing ⟨twoPods, true, true⟩) := by
  have textual := listing_textual ⟨twoPods, true, true⟩
  refine ⟨⟨rfl, rfl, rfl, rfl, rfl⟩, textual.hasTexts, readable_of_textual textual _,
    ⟨rfl, quota, ⟨rfl, fun other hother => ?_⟩, rfl⟩, ?_⟩
  · have held : (listing ⟨twoPods, true, true⟩).policies.index.get?
        ⟨.text "team-a", .text other⟩ = if ((⟨.text "team-a", .text "quota"⟩ : ObjectKey) ==
          ⟨.text "team-a", .text other⟩) then some quota else none := rfl
    rw [held] at hother
    split at hother
    · next same =>
      have named := Key.text_beq_iff.mp (ObjectKey.beq_iff.mp same).2
      exact (Key.text.inj named).ge
    · exact absurd rfl hother
  · refine ⟨fun calls _ => ?_, fun calls _ => ?_, fun calls _ body => ?_⟩
    · rw [Fixed.afterAll_eq]
      rfl
    · rw [Fixed.afterAll_eq]
      exact ⟨_, rfl⟩
    · rw [Fixed.afterAll_eq]
      exact ⟨_, rfl⟩

/-- The policy is shown twice, each time with another version: the namespace is queued again, and
has been reconciled twice. -/
theorem rounds_never_rest_twice :
    let o := listing ⟨twoPods, true, true⟩
    let ys := [quota.restated (.str "2") (.bool true), quota.restated (.str "3") (.bool true)]
    let o' := ys.foldl (round .standard) o
    Steady "team-a" "quota" atMostThree twoPods o ∧ (∀ y ∈ ys, quota.Echoes y) ∧
      o'.queue.Only (.text "team-a") ∧
      o'.site.metrics.value (reconcileSeries "team-a") = 2 := by
  intro o ys o'
  have echoes : ∀ y ∈ ys, quota.Echoes y := by
    simp only [ys, List.forall_mem_cons]
    exact ⟨ApiObject.echoes_restated rfl _ _, ApiObject.echoes_restated rfl _ _, by simp⟩
  obtain ⟨_, _, _, rounds⟩ := rounds_never_rest .standard (by decide) (by decide)
    atMostThree_writable (stubborn_readable 0 twoPods rfl).1 (fun _ => twoPods_compliant)
    listing_steady rfl
  obtain ⟨only, _, _, counted⟩ := rounds ys echoes
  refine ⟨listing_steady, echoes, only, ?_⟩
  rw [counted]
  rfl

/-- A cluster with two pods and the policy of three. -/
def roomy : InMemory :=
  { InMemory.empty with
    pods := twoPods.map fun q =>
      (⟨.text "team-a", .ofText (q.metadata.bind (·.name))⟩, q)
    policies := [(⟨.text "team-a", .text "quota"⟩, .obj [("spec", .obj [("maxPods", .int 3)])])] }

/-- The status that was written last. -/
def lastStatus (c : InMemory) : Json :=
  match c.patches.getLast? with
  | some (_, _, .obj body) => Json.ofOption (field? "status" body)
  | _ => .null

/-- The pods respect the policy, and their namespace is pending alone. Processing it writes a status
and leaves nothing pending; the event about that status makes the namespace pending. -/
theorem pending_again :
    let ns := Key.text "team-a"
    let o : Operator InMemory Float :=
      ((host .policies).relist (.ok (.list [quota] (some "1"))) (start roomy)).2
    let t := (processNext .standard o).2
    let y := quota.restated (.str "2") (lastStatus t.site.cluster)
    let u := ((host .policies).apply .modified y t).2
    o.queue.Only ns ∧ (∀ v, verdictOn atMostThree (roomy.podsIn ns.toJson) = .ok v →
      v.violated = false) ∧ (processNext .standard o).1 = .key ns ∧ t.queue.Idle ∧
      t.site.cluster.patches.length = 1 ∧ quota.Echoes y ∧ u.queue.Pending ns ∧
      u.queue.queue ≠ [] := by
  intro ns o t y u
  have idle : (t.queue.queue.isEmpty && t.queue.dirty.isEmpty && t.queue.readyAt.isEmpty &&
      t.queue.processing.isEmpty && !t.queue.shuttingDown) = true := by decide +kernel
  simp only [Bool.and_eq_true, List.isEmpty_iff, Bool.not_eq_true'] at idle
  obtain ⟨⟨⟨⟨hqueue, hdirty⟩, hready⟩, hprocessing⟩, hserving⟩ := idle
  have marked : u.queue.dirty.contains ns = true := by decide +kernel
  have queued : u.queue.queue.isEmpty = false := by decide +kernel
  refine ⟨⟨rfl, rfl, rfl, rfl, rfl⟩, fun _ => twoPods_compliant, rfl,
    ⟨hqueue, ⟨hdirty, hready, hprocessing⟩, hserving⟩, by decide +kernel,
    ApiObject.echoes_restated rfl _ _, Or.inl (Or.inl marked), ?_⟩
  exact fun none => by simp [none] at queued

end Operator

end QuotaWarden
