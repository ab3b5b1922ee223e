import QuotaWarden.Operator.Reconcile
import QuotaWarden.Proofs.EvictionSafety

/-! # The courses of a reconcile

A reconcile posts an event, enforces the policy, publishes the verdict and posts another event. On a
cluster that answers or refuses each call it takes one of a few courses.

* `Obliging` are such clusters. How they take events does not matter.
* `StatusCourse` are the courses of publishing a status, `ReconcileCourse` those of enforcing and
  publishing; `reconcileCalls` are all the calls of a reconcile.
* `reconcile_course`: every reconcile takes such a course, makes its calls and no others, and counts
  what it comes to.
* `ReconcileCourse.unique`: which course is taken depends on the answers to the calls that post no
  event, and on nothing else. -/

namespace QuotaWarden

variable {σ σ' τ : Type} [ClusterApi σ] [ClusterApi σ']

/-! ### Clusters that answer or refuse -/

namespace ClusterCall

/-- The event that a call posts. -/
def event? : ClusterCall → Option ClusterEvent
  | createEvent e => some e
  | _ => none

/-- The policy that a call reads. -/
def read? : ClusterCall → Option (Json × Json)
  | getPolicy ns name => some (ns, name)
  | _ => none

/-- The policy whose status a call writes, and what it writes. -/
def write? : ClusterCall → Option (Json × Json × Json)
  | patchStatus ns name body => some (ns, name, body)
  | _ => none

end ClusterCall

/-- A cluster answers each call or refuses it, whatever was asked before. The pods that it lists in
a namespace can be evaluated, and live ones have metadata. -/
structure Obliging (ns : Json) (c : σ) : Prop where
  answers : ∀ calls (call : ClusterCall) f, call.event? = none →
    call.reply (afterAll calls c) = .error f → ∃ r, f = .refused r
  lists : ∀ calls pods, (ClusterCall.listPods ns).reply (afterAll calls c) = .ok pods →
    Moderate pods ∧ ∀ q ∈ livePods pods, q.metadata ≠ none

/-- Two clusters give the same answers after the same calls, as long as no event is posted. -/
def AlikeButEvents (c : σ) (c' : σ') : Prop :=
  ∀ calls (call : ClusterCall), call.event? = none →
    call.reply (afterAll calls c') = call.reply (afterAll calls c)

section

variable {ns : Json} {c : σ} {c' : σ'}

theorem Obliging.after (h : Obliging ns c) (call : ClusterCall) : Obliging ns (call.after c) :=
  ⟨fun calls => h.answers (call :: calls), fun calls => h.lists (call :: calls)⟩

theorem Obliging.afterAll (h : Obliging ns c) (calls : List ClusterCall) :
    Obliging ns (QuotaWarden.afterAll calls c) := by
  induction calls generalizing c with
  | nil => exact h
  | cons call r ih => exact ih (h.after call)

theorem Obliging.reply (h : Obliging ns c) (call : ClusterCall) (he : call.event? = none) :
    (∃ x, call.reply c = .ok x) ∨ ∃ r, call.reply c = .error (.refused r) := by
  cases hr : call.reply c with
  | ok x => exact Or.inl ⟨x, rfl⟩
  | error f =>
      obtain ⟨r, rfl⟩ := h.answers [] call f he hr
      exact Or.inr ⟨r, rfl⟩

theorem Obliging.amenable : Amenable ns (Obliging (σ := σ) ns) where
  lists c hc := by
    rcases hc.reply (.listPods ns) rfl with ⟨pods, hl⟩ | ⟨r, hl⟩
    · refine ⟨.ok pods, hl, ?_⟩
      rintro _ ⟨⟩
      exact hc.lists [] pods hl
    · exact ⟨.error r, hl, nofun⟩
  deletes c hc podNs name := by
    rcases hc.reply (.deletePod podNs name deleteGraceSeconds) rfl with ⟨_, hd⟩ | ⟨r, hd⟩
    · exact ⟨none, hd⟩
    · exact ⟨some r, hd⟩
  afterList _ hc := hc.after _
  afterDelete _ hc _ _ := hc.after _

theorem AlikeButEvents.after (h : AlikeButEvents c c') (call : ClusterCall) :
    AlikeButEvents (call.after c) (call.after c') := fun calls => h (call :: calls)

theorem AlikeButEvents.afterAll (h : AlikeButEvents c c') (calls : List ClusterCall) :
    AlikeButEvents (QuotaWarden.afterAll calls c) (QuotaWarden.afterAll calls c') := by
  induction calls generalizing c c' with
  | nil => exact h
  | cons call r ih => exact ih (h.after call)

theorem Obliging.of_alike (h : Obliging ns c) (alike : AlikeButEvents c c') : Obliging ns c' := by
  refine ⟨fun calls call f he hr => ?_, fun calls pods hl => ?_⟩
  · rw [alike calls call he] at hr
    exact h.answers calls call f he hr
  · rw [alike calls (.listPods ns) rfl] at hl
    exact h.lists calls pods hl

theorem Recorded.alikeButEvents (c : σ) (calls : List ClusterCall) :
    AlikeButEvents c (⟨c, calls⟩ : Recorded σ) := by
  intro made call _
  rw [afterAll_eq]
  exact congrArg Prod.fst (run_eq call _)

end

/-! ### Posting events -/

/-- A policy has a namespace and a name that are texts. -/
structure Policy.IsAt (ns name : String) (p : Policy) : Prop where
  ns : p.ns = .str ns
  name : p.name = .str name

/-- An event of the operator about a policy. -/
def policyEvent (ns name : String) (type : EventType) (reason message : String) : ClusterEvent :=
  ⟨name ++ ".", some ns, some name, some type.name, some reason, some message, some eventSource⟩

theorem recordEvent_apply {ns name : String} {p : Policy} (hat : p.IsAt ns name) (type : EventType)
    (reason message : String) (s : Site σ τ) :
    ∃ posted t, recordEvent p type reason message s = (.ok posted, t) ∧
      t.cluster = (ClusterCall.createEvent (policyEvent ns name type reason message)).after
        s.cluster ∧ t.metrics = s.metrics := by
  have about : eventAbout (.str eventSource) p (.str type.name) (.str reason) (.str message) =
      .ok (policyEvent ns name type reason message) := by
    simp [eventAbout, hat.ns, hat.name, optionalText, policyEvent, Json.display, bind, Except.bind,
      pure, Except.pure]
  unfold recordEvent recordEventFrom
  rw [about, Act.bind_apply, Act.lift_apply]
  dsimp only
  rw [Act.bind_apply, Act.attempt_apply]
  rcases hr : Site.call (ClusterApi.createEvent (policyEvent ns name type reason message)) s with
    ⟨outcome, t⟩
  have ht : t = { s with cluster := (ClusterCall.createEvent
      (policyEvent ns name type reason message)).after s.cluster } := (congrArg Prod.snd hr).symm
  cases outcome with
  | ok e => exact ⟨some e, t, rfl, by rw [ht], by rw [ht]⟩
  | error f => exact ⟨none, _, rfl, by rw [ht]; rfl, by rw [ht]; rfl⟩

/-- The event at the start of a reconcile. -/
def startedEvent (ns name : String) : ClusterEvent :=
  policyEvent ns name .normal "ReconcileStarted"
    ("Started reconciling ResourceQuotaPolicy " ++ name)

/-- The event at the end of a reconcile. -/
def closingEvent (ns name : String) : Except Fault Verdict → ClusterEvent
  | .ok _ => policyEvent ns name .normal "ReconcileSucceeded"
      ("Successfully enforced ResourceQuotaPolicy " ++ name)
  | .error f => policyEvent ns name .warning "EnforcementFailed"
      ("Failed to enforce policy " ++ name ++ ": " ++ f.message)

/-! ### Publishing a status -/

/-- What is written about a verdict: its status with a mark of the time. -/
def statusBody (status : Status) : Json :=
  .obj [("status", .obj (setField "lastReconciled" (.bool true) status.fields))]

/-- The courses of publishing a status: the calls and how it ends. -/
inductive StatusCourse (ns name : Json) (status : Status) (c : σ) :
    List ClusterCall → Except Fault Unit → Prop
  | gone (r : Refusal) : (ClusterCall.getPolicy ns name).reply c = .error (.refused r) →
      r.isMissing = true → StatusCourse ns name status c [.getPolicy ns name] (.ok ())
  | unread (r : Refusal) : (ClusterCall.getPolicy ns name).reply c = .error (.refused r) →
      r.isMissing = false → StatusCourse ns name status c [.getPolicy ns name]
        (.error (.statusNotWritten ns name.display r))
  | unwritten (v : Json) (r : Refusal) : (ClusterCall.getPolicy ns name).reply c = .ok v →
      (ClusterCall.patchStatus ns name (statusBody status)).reply
        ((ClusterCall.getPolicy ns name).after c) = .error (.refused r) →
      StatusCourse ns name status c
        [.getPolicy ns name, .patchStatus ns name (statusBody status)]
        (.error (.statusNotWritten ns name.display r))
  | written (v w : Json) : (ClusterCall.getPolicy ns name).reply c = .ok v →
      (ClusterCall.patchStatus ns name (statusBody status)).reply
        ((ClusterCall.getPolicy ns name).after c) = .ok w →
      StatusCourse ns name status c
        [.getPolicy ns name, .patchStatus ns name (statusBody status)] (.ok ())

section

variable {ns name : Json} {status : Status} {s : Site σ τ} {v w : Json} {r : Refusal}

/-- The site after a call. -/
def Site.after (call : ClusterCall) (s : Site σ τ) : Site σ τ :=
  { s with cluster := call.after s.cluster }

theorem readPolicy_given (h : (ClusterCall.getPolicy ns name).reply s.cluster = .ok v) :
    readPolicy ns name s = (.ok (some v), s.after (.getPolicy ns name)) := by
  have got : Site.call (ClusterApi.getPolicy ns name) s =
      (.ok v, s.after (.getPolicy ns name)) := Prod.ext h rfl
  unfold readPolicy
  rw [Act.bind_apply, Act.attempt_apply, got]
  rfl

theorem readPolicy_refused
    (h : (ClusterCall.getPolicy ns name).reply s.cluster = .error (.refused r)) :
    readPolicy ns name s = (if r.isMissing then .ok none else .error (.refused r),
      s.after (.getPolicy ns name)) := by
  have got : Site.call (ClusterApi.getPolicy ns name) s =
      (.error (.refused r), s.after (.getPolicy ns name)) := Prod.ext h rfl
  unfold readPolicy
  rw [Act.bind_apply, Act.attempt_apply, got]
  cases hm : r.isMissing <;> simp [hm]

theorem writeStatus_given (h : (ClusterCall.getPolicy ns name).reply s.cluster = .ok v) :
    writeStatus ns name (.obj status.fields) s =
      (((ClusterCall.patchStatus ns name (statusBody status)).reply
        (s.after (.getPolicy ns name)).cluster).map some,
      (s.after (.getPolicy ns name)).after (.patchStatus ns name (statusBody status))) := by
  unfold writeStatus
  rw [Act.bind_of_ok (readPolicy_given h)]
  exact Act.map_apply some _ _

theorem publishStatus_written (h : (ClusterCall.getPolicy ns name).reply s.cluster = .ok v)
    (h' : (ClusterCall.patchStatus ns name (statusBody status)).reply
      ((ClusterCall.getPolicy ns name).after s.cluster) = .ok w) :
    publishStatus ns name (.obj status.fields) s = (.ok (some w),
      (s.after (.getPolicy ns name)).after (.patchStatus ns name (statusBody status))) := by
  unfold publishStatus
  rw [Act.bind_apply, Act.attempt_apply, writeStatus_given h,
    show (ClusterCall.patchStatus ns name (statusBody status)).reply
      (s.after (.getPolicy ns name)).cluster = .ok w from h']
  rfl

end

theorem publishStatus_course {space : Json} {s : Site σ τ} (hs : Obliging space s.cluster)
    (ns name : Json) (status : Status) :
    ∃ calls outcome t, publishStatus ns name (.obj status.fields) s = (outcome, t) ∧
      t.cluster = afterAll calls s.cluster ∧ t.metrics = s.metrics ∧
      StatusCourse ns name status s.cluster calls (outcome.map fun _ => ()) := by
  rcases hs.reply (.getPolicy ns name) rfl with ⟨v, hget⟩ | ⟨r, hget⟩
  · rcases (hs.after (.getPolicy ns name)).reply (.patchStatus ns name (statusBody status)) rfl
      with ⟨w, hpatch⟩ | ⟨r, hpatch⟩
    · exact ⟨_, .ok (some w), _, publishStatus_written hget hpatch, rfl, rfl,
        .written v w hget hpatch⟩
    · unfold publishStatus
      rw [Act.bind_apply, Act.attempt_apply, writeStatus_given hget,
        show (ClusterCall.patchStatus ns name (statusBody status)).reply
          (s.after (.getPolicy ns name)).cluster = .error (.refused r) from hpatch]
      exact ⟨_, _, _, rfl, rfl, rfl, .unwritten v r hget hpatch⟩
  · unfold publishStatus writeStatus
    rw [Act.bind_apply, Act.attempt_apply, Act.bind_apply, readPolicy_refused hget]
    cases hm : r.isMissing with
    | true => exact ⟨_, .ok none, _, rfl, rfl, rfl, .gone r hget hm⟩
    | false => exact ⟨_, _, _, rfl, rfl, rfl, .unread r hget hm⟩

/-! ### Enforcing and publishing -/

theorem Answered.append {c : σ} {earlier later : List Exchange}
    (h : Answered c (earlier ++ later)) : Answered (afterExchanges earlier c) later := by
  induction earlier generalizing c with
  | nil => exact h
  | cons e r ih => exact ih h.2

theorem Verdict.status_ok {pods : List Pod} {p : Policy} {v : Verdict} (h : Moderate pods)
    (hp : p.Writable) (hv : verdictOn p pods = .ok v) : ∃ status, v.status = .ok status := by
  obtain ⟨v', hv', hu, _⟩ := verdictOn_ok h hp
  obtain rfl : v' = v := Except.ok.inj (hv'.symm.trans hv)
  obtain ⟨u, hu', hsum, _⟩ := Usage.ofPods_ok h
  obtain rfl : u = v'.usage := Except.ok.inj (hu'.symm.trans hu)
  obtain ⟨hcpu, hmemory⟩ := h.total _ hu
  obtain ⟨cpu, written⟩ := Quantity.writeCpu_ok (hsum.cpu.rounded.writable hcpu)
  obtain ⟨memory, written'⟩ := Quantity.writeMemory_ok (hsum.memory.rounded.writable hmemory)
  exact ⟨_, by rw [Verdict.status, written, written']; rfl⟩

/-- The courses of enforcing a policy and publishing the verdict: the exchanges of the enforcement,
the calls after them, and how it ends. -/
inductive ReconcileCourse (o : EnforcementOptions) (ns : Json) (p : Policy) (c : σ) :
    List Exchange → List ClusterCall → Except Fault Verdict → Prop
  | unenforced {exchanges : List Exchange} {f : Fault} : Answered c exchanges →
      Course o ns p o.cap.toNat none exchanges (.error f) →
      ReconcileCourse o ns p c exchanges [] (.error f)
  | enforced {exchanges : List Exchange} {v : Verdict} {status : Status} {calls : List ClusterCall}
      {published : Except Fault Unit} : Answered c exchanges →
      Course o ns p o.cap.toNat none exchanges (.ok v) → v.status = .ok status →
      StatusCourse ns p.name status (afterExchanges exchanges c) calls published →
      ReconcileCourse o ns p c exchanges calls (published.map fun _ => v)

open Operator

variable [TimeScale τ] {o : EnforcementOptions} {ns : Json} {p : Policy} {s : Site σ τ}

theorem enforceAndPublish_course (hs : Obliging ns s.cluster) (hc : o.choose = selectVictim)
    (hp : p.Writable) :
    ∃ exchanges calls result t, enforceAndPublish o ns p s = (result, t) ∧
      t.cluster = afterAll calls (afterExchanges exchanges s.cluster) ∧
      t.metrics = (countDelete o ns)^[exchanges.countP Exchange.isGone] s.metrics ∧
      ReconcileCourse o ns p s.cluster exchanges calls result := by
  obtain ⟨exchanges, t, result, e, hafter, hanswered, hmetrics, hcourse⟩ :=
    enforceRounds_follows (s := s) Obliging.amenable hc hp o.cap.toNat 1 none hs
  unfold enforceAndPublish
  cases result with
  | error f =>
      exact ⟨exchanges, [], .error f, t, Act.bind_of_error e, hafter, hmetrics,
        .unenforced hanswered hcourse⟩
  | ok v =>
      obtain ⟨earlier, pods, rfl, hv⟩ := hcourse.returned rfl
      have listed : (ClusterCall.listPods ns).reply (afterExchanges earlier s.cluster) = .ok pods :=
        hanswered.append.1
      obtain ⟨status, hstatus⟩ := Verdict.status_ok (hs.lists _ pods listed).1 hp hv
      have obliging : Obliging ns t.cluster := by
        rw [hafter]
        exact hs.afterAll _
      obtain ⟨calls, outcome, u, published, hcluster, hkept, hpublishing⟩ :=
        publishStatus_course obliging ns p.name status
      rw [hafter] at hcluster hpublishing
      have course := ReconcileCourse.enforced hanswered hcourse hstatus hpublishing
      refine ⟨_, calls, outcome.map fun _ => v, u, ?_, hcluster, hkept.trans hmetrics, ?_⟩
      · rw [enforce, Act.bind_of_ok e, Act.bind_apply, Act.lift_apply, hstatus]
        cases outcome with
        | ok x => exact Act.bind_of_ok published
        | error f => exact Act.bind_of_error published
      · cases outcome with
        | ok x => exact course
        | error f => exact course

theorem StatusCourse.fault_spec {name : Json} {status : Status} {c : σ} {calls : List ClusterCall}
    {published : Except Fault Unit} (h : StatusCourse ns name status c calls published) {f : Fault}
    (hf : published = .error f) : f.kind = .statusUpdate ∧ f.ns? = some ns := by
  cases h with
  | gone => cases hf
  | written => cases hf
  | unread =>
      cases hf
      exact ⟨rfl, rfl⟩
  | unwritten =>
      cases hf
      exact ⟨rfl, rfl⟩

theorem StatusCourse.kinds {name : Json} {status : Status} {c : σ} {calls : List ClusterCall}
    {published : Except Fault Unit} (h : StatusCourse ns name status c calls published) :
    calls.filterMap ClusterCall.event? = [] ∧
      calls.filterMap ClusterCall.read? = [(ns, name)] := by
  cases h <;> exact ⟨rfl, rfl⟩

section

variable {c : σ} {exchanges : List Exchange} {calls : List ClusterCall}
  {result : Except Fault Verdict}

/-- A fault is of the kind `enforcement` and comes before the status is read, or of the kind
`statusUpdate`; it names `ns`. -/
theorem ReconcileCourse.fault_spec (h : ReconcileCourse o ns p c exchanges calls result) {f : Fault}
    (hf : result = .error f) :
    (f.kind = .enforcement ∧ calls = [] ∨
      f.kind = .statusUpdate ∧ calls.filterMap ClusterCall.read? = [(ns, p.name)]) ∧
      f.ns? = some ns := by
  cases h with
  | unenforced _ hcourse =>
      obtain ⟨kind, named⟩ := hcourse.fault_spec hf
      exact ⟨Or.inl ⟨kind, rfl⟩, named⟩
  | @enforced _ _ _ published _ _ _ hpublishing =>
      cases published with
      | ok _ => cases hf
      | error g =>
          cases hf
          obtain ⟨kind, named⟩ := hpublishing.fault_spec rfl
          exact ⟨Or.inr ⟨kind, hpublishing.kinds.2⟩, named⟩

theorem ReconcileCourse.returned (h : ReconcileCourse o ns p c exchanges calls result) {v : Verdict}
    (hv : result = .ok v) :
    ∃ status, v.status = .ok status ∧
      StatusCourse ns p.name status (afterExchanges exchanges c) calls (.ok ()) := by
  cases h with
  | unenforced => cases hv
  | @enforced _ _ _ published _ _ hstatus hpublishing =>
      cases published with
      | error f => cases hv
      | ok x =>
          cases hv
          exact ⟨_, hstatus, hpublishing⟩

end

/-! ### Whole reconciles -/

/-- The calls of a reconcile. -/
def reconcileCalls (ns name : String) (exchanges : List Exchange) (calls : List ClusterCall)
    (result : Except Fault Verdict) : List ClusterCall :=
  .createEvent (startedEvent ns name) ::
    (exchanges.map Exchange.call ++ calls ++ [.createEvent (closingEvent ns name result)])

/-- Whether an outcome is a failure. -/
def failed {α : Type} : Except Fault α → Bool
  | .ok _ => false
  | .error _ => true

/-- What a reconcile counts: the deletes, and what it comes to. -/
def countReconcile (o : EnforcementOptions) (ns : String) (exchanges : List Exchange)
    (result : Except Fault Verdict) (m : Metrics) : Metrics :=
  ((countDelete o (.str ns))^[exchanges.countP Exchange.isGone] m).reconciled ns (failed result)

/-- The report at the end of a reconcile. -/
def report (ns : Json) (p : Policy) : Except Fault Verdict → Act (Site σ τ) Unit
  | .ok _ => reportSucceeded ns p
  | .error f => reportFailed ns p f

omit [TimeScale τ] in
theorem report_apply {ns name : String} (hat : p.IsAt ns name) (result : Except Fault Verdict)
    (s : Site σ τ) :
    ∃ t, report (.str ns) p result s = (.ok (), t) ∧
      t.cluster = (ClusterCall.createEvent (closingEvent ns name result)).after s.cluster ∧
      t.metrics = s.metrics.reconciled ns (failed result) := by
  cases result with
  | ok v =>
      obtain ⟨_, t, e, hcluster, hmetrics⟩ := recordEvent_apply hat .normal "ReconcileSucceeded"
        ("Successfully enforced ResourceQuotaPolicy " ++ (Json.str name).display)
        { s with metrics := s.metrics.reconciled ns false }
      refine ⟨t, ?_, hcluster, hmetrics⟩
      unfold report reportSucceeded
      rw [hat.name]
      exact Act.bind_of_ok e
  | error f =>
      obtain ⟨_, t, e, hcluster, hmetrics⟩ := recordEvent_apply hat .warning "EnforcementFailed"
        ("Failed to enforce policy " ++ (Json.str name).display ++ ": " ++ f.message)
        { s with metrics := s.metrics.reconciled ns true }
      refine ⟨t, ?_, hcluster, hmetrics⟩
      unfold report reportFailed
      rw [hat.name]
      exact Act.bind_of_ok e

/-- `reconcile` is `enforceAndPublish` between `startedEvent` and `closingEvent`. -/
theorem reconcile_framed {ns name : String} (hat : p.IsAt ns name) (s : Site σ τ) :
    ∃ s₁ : Site σ τ,
      s₁.cluster = (ClusterCall.createEvent (startedEvent ns name)).after s.cluster ∧
      s₁.metrics = s.metrics ∧
      ∀ result s₂, enforceAndPublish o (.str ns) p s₁ = (result, s₂) →
        (∀ f, result = .error f → f.isReconcileFailure = true) →
        ∃ t, reconcile o (.str ns) p s = (result, t) ∧
          t.cluster = (ClusterCall.createEvent (closingEvent ns name result)).after s₂.cluster ∧
          t.metrics = s₂.metrics.reconciled ns (failed result) := by
  obtain ⟨_, s₁, started, hcluster₁, hmetrics₁⟩ := recordEvent_apply hat .normal
    "ReconcileStarted" ("Started reconciling ResourceQuotaPolicy " ++ (Json.str name).display) s
  refine ⟨s₁, hcluster₁, hmetrics₁, fun result s₂ e reports => ?_⟩
  obtain ⟨t, reported, hcluster, hmetrics⟩ := report_apply hat result s₂
  refine ⟨t, ?_, hcluster, hmetrics⟩
  unfold reconcile
  rw [hat.name, Act.bind_of_ok started, Act.bind_apply, Act.attempt_apply, e]
  cases result with
  | ok v => exact Act.bind_of_ok reported
  | error f =>
      dsimp only
      rw [if_pos (reports f rfl)]
      exact Act.bind_of_ok reported

/-- `reconcile` makes the `reconcileCalls` of a `ReconcileCourse`, and `countReconcile` counts it.
-/
theorem reconcile_course {ns name : String} (hat : p.IsAt ns name)
    (hs : Obliging (.str ns) s.cluster) (hc : o.choose = selectVictim) (hp : p.Writable) :
    ∃ exchanges calls result t, reconcile o (.str ns) p s = (result, t) ∧
      t.cluster = afterAll (reconcileCalls ns name exchanges calls result) s.cluster ∧
      t.metrics = countReconcile o ns exchanges result s.metrics ∧
      ReconcileCourse o (.str ns) p
        ((ClusterCall.createEvent (startedEvent ns name)).after s.cluster) exchanges calls
        result := by
  obtain ⟨s₁, hcluster₁, hmetrics₁, framed⟩ := reconcile_framed (o := o) hat s
  have obliging : Obliging (.str ns) s₁.cluster := by
    rw [hcluster₁]
    exact hs.after _
  obtain ⟨exchanges, calls, result, s₂, e, hcluster₂, hmetrics₂, hcourse⟩ :=
    enforceAndPublish_course obliging hc hp
  obtain ⟨t, done, hcluster, hmetrics⟩ := framed result s₂ e fun f hf => by
    obtain ⟨⟨kind, _⟩ | ⟨kind, _⟩, _⟩ := hcourse.fault_spec hf <;>
      simp [Fault.isReconcileFailure, kind]
  rw [hcluster₁] at hcluster₂ hcourse
  rw [hmetrics₁] at hmetrics₂
  refine ⟨exchanges, calls, result, t, done, ?_, ?_, hcourse⟩
  · rw [hcluster, hcluster₂, reconcileCalls, ← List.cons_append, afterAll_concat,
      ← List.cons_append, afterAll_append]
    rfl
  · rw [hmetrics, hmetrics₂]
    rfl

/-! ### The calls of a reconcile by kind -/

omit [ClusterApi σ] [TimeScale τ] in
/-- Of what `kind` selects, an enforcement makes no call. -/
theorem filterMap_reconcileCalls {α : Type} {kind : ClusterCall → Option α}
    (hkind : ∀ e : Exchange, kind e.call = none) (ns name : String) (exchanges : List Exchange)
    (calls : List ClusterCall) (result : Except Fault Verdict) :
    (reconcileCalls ns name exchanges calls result).filterMap kind =
      (kind (.createEvent (startedEvent ns name))).toList ++ (calls.filterMap kind ++
        (kind (.createEvent (closingEvent ns name result))).toList) := by
  have other : (exchanges.map Exchange.call).filterMap kind = [] := by simp [hkind]
  have single : ∀ call, [call].filterMap kind = (kind call).toList := fun call => by
    cases h : kind call <;> simp [h]
  rw [reconcileCalls, ← List.singleton_append, List.filterMap_append, List.filterMap_append,
    List.filterMap_append, single, single, other, List.nil_append]

section

variable {ns name : String} {exchanges : List Exchange} {publishing : List ClusterCall}
  {result : Except Fault Verdict}

/-- `reconcileCalls` around the first call after the enforcement. -/
theorem reconcileCalls_split (call : ClusterCall) (later : List ClusterCall) :
    reconcileCalls ns name exchanges (call :: later) result =
      (.createEvent (startedEvent ns name) :: exchanges.map Exchange.call) ++
        call :: (later ++ [.createEvent (closingEvent ns name result)]) := by
  simp [reconcileCalls]

theorem writes_reconcileCalls :
    (reconcileCalls ns name exchanges publishing result).filterMap ClusterCall.write? =
      publishing.filterMap ClusterCall.write? := by
  rw [filterMap_reconcileCalls (fun e => by cases e <;> rfl)]
  exact List.append_nil _

theorem reads_reconcileCalls :
    (reconcileCalls ns name exchanges publishing result).filterMap ClusterCall.read? =
      publishing.filterMap ClusterCall.read? := by
  rw [filterMap_reconcileCalls (fun e => by cases e <;> rfl)]
  exact List.append_nil _

end

/-- The events are `startedEvent` and `closingEvent`. -/
theorem ReconcileCourse.posted {c : σ} {exchanges : List Exchange} {calls : List ClusterCall}
    {result : Except Fault Verdict} (h : ReconcileCourse o ns p c exchanges calls result)
    (space name : String) :
    (reconcileCalls space name exchanges calls result).filterMap ClusterCall.event? =
      [startedEvent space name, closingEvent space name result] := by
  have quiet : calls.filterMap ClusterCall.event? = [] := by
    cases h with
    | unenforced => rfl
    | enforced _ _ _ hpublishing => exact hpublishing.kinds.1
  rw [filterMap_reconcileCalls (fun e => by cases e <;> rfl), quiet]
  rfl

/-! ### Courses are determined by answers -/

omit [TimeScale τ]

section

variable {c : σ} {c' : σ'} (alike : AlikeButEvents c c')

include alike

theorem AlikeButEvents.listed {a a' : Except Refusal (List Pod)}
    (h : (Exchange.listed ns a).AnsweredBy c) (h' : (Exchange.listed ns a').AnsweredBy c') :
    a' = a :=
  Oracle.listOutcome_inj (h'.symm.trans ((alike [] (.listPods ns) rfl).trans h))

theorem AlikeButEvents.deleted {podNs name : Option String} {a a' : Option Refusal}
    (h : (Exchange.deleted podNs name a).AnsweredBy c)
    (h' : (Exchange.deleted podNs name a').AnsweredBy c') : a' = a :=
  deleteOutcome_inj
    (h'.symm.trans ((alike [] (.deletePod podNs name deleteGraceSeconds) rfl).trans h))

end

theorem Course.unique {left : Nat} {last : Option Refusal} {calls calls' : List Exchange}
    {result result' : Except Fault Verdict} (h : Course o ns p left last calls result)
    (h' : Course o ns p left last calls' result') {c : σ} {c' : σ'} (alike : AlikeButEvents c c')
    (ha : Answered c calls) (ha' : Answered c' calls') : calls' = calls ∧ result' = result := by
  induction h generalizing calls' result' c c' with
  | unlisted r =>
      cases h' <;> have e := alike.listed ha.1 ha'.1 <;> simp_all
  | compliant hv hok =>
      cases h' <;> have e := alike.listed ha.1 ha'.1 <;> simp_all
  | dryRun hv hviolated hdry =>
      cases h' <;> have e := alike.listed ha.1 ha'.1 <;> simp_all
  | exhausted hv hviolated =>
      cases h' <;> have e := alike.listed ha.1 ha'.1 <;> simp_all
  | stillViolated r hv hviolated =>
      cases h' <;> have e := alike.listed ha.1 ha'.1 <;> simp_all
  | evicted answer hv hviolated hdry hselect hq hm next ih =>
      cases h' with
      | evicted answer' hv' _ _ hselect' _ hm' next' =>
          obtain rfl := Except.ok.inj (alike.listed ha.1 ha'.1)
          obtain rfl := Except.ok.inj (hv'.symm.trans hv)
          obtain rfl := Option.some.inj (Except.ok.inj (hselect'.symm.trans hselect))
          obtain rfl := Option.some.inj (hm'.symm.trans hm)
          obtain rfl := (alike.after _).deleted ha.2.1 ha'.2.1
          obtain ⟨rfl, rfl⟩ := ih next' ((alike.after _).after _) ha.2.2 ha'.2.2
          exact ⟨rfl, rfl⟩
      | _ =>
          have e := alike.listed ha.1 ha'.1
          simp_all

theorem StatusCourse.unique {name : Json} {status : Status} {c : σ} {c' : σ'}
    {calls calls' : List ClusterCall} {published published' : Except Fault Unit}
    (h : StatusCourse ns name status c calls published)
    (h' : StatusCourse ns name status c' calls' published') (alike : AlikeButEvents c c') :
    calls' = calls ∧ published' = published := by
  have get := alike [] (.getPolicy ns name) rfl
  have patch := alike [.getPolicy ns name] (.patchStatus ns name (statusBody status)) rfl
  simp only [afterAll, List.foldl_nil, List.foldl_cons] at get patch
  cases h <;> cases h' <;> simp_all

/-- `AlikeButEvents` clusters lead to the same course. -/
theorem ReconcileCourse.unique {c : σ} {c' : σ'} {exchanges exchanges' : List Exchange}
    {calls calls' : List ClusterCall} {result result' : Except Fault Verdict}
    (h : ReconcileCourse o ns p c exchanges calls result)
    (h' : ReconcileCourse o ns p c' exchanges' calls' result') (alike : AlikeButEvents c c') :
    exchanges' = exchanges ∧ calls' = calls ∧ result' = result := by
  cases h with
  | unenforced ha hcourse =>
      cases h' with
      | unenforced ha' hcourse' =>
          obtain ⟨rfl, e⟩ := hcourse.unique hcourse' alike ha ha'
          exact ⟨rfl, rfl, e⟩
      | enforced ha' hcourse' => exact nomatch (hcourse.unique hcourse' alike ha ha').2
  | enforced ha hcourse hstatus hpublishing =>
      cases h' with
      | unenforced ha' hcourse' => exact nomatch (hcourse.unique hcourse' alike ha ha').2
      | enforced ha' hcourse' hstatus' hpublishing' =>
          obtain ⟨rfl, e⟩ := hcourse.unique hcourse' alike ha ha'
          obtain rfl := Except.ok.inj e
          obtain rfl := Except.ok.inj (hstatus'.symm.trans hstatus)
          obtain ⟨rfl, rfl⟩ := hpublishing.unique hpublishing' (alike.afterAll _)
          exact ⟨rfl, rfl, rfl⟩

end QuotaWarden
