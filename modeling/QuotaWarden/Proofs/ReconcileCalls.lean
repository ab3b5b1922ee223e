import QuotaWarden.Operator.Reconcile
import QuotaWarden.Proofs.ClusterCalls
import QuotaWarden.Proofs.PolicyReading

/-! # The calls of a reconcile

A reconcile of a namespace is followed on two clusters side by side. As long as both answer alike
within the namespace, both are asked the same calls, all of them within it, and the outcomes are the
same.

`InStep` is what two sites have in common along the way. Each part of a reconcile `Tracks` it, up to
`reconcile_tracks`. -/

namespace QuotaWarden

/-! ### Sites in step -/

variable {σ σ' τ : Type} {ns : String} {policy : Option Json}

/-- Nothing was counted except with the label of a namespace. -/
def Metrics.CountsOnly (ns : String) (m m' : Metrics) : Prop :=
  ∀ r : Series, ("namespace", ns) ∉ r.labels →
    Dictionary.get? r m'.samples = Dictionary.get? r m.samples

namespace Metrics

theorem CountsOnly.refl (m : Metrics) : CountsOnly ns m m := fun _ _ => rfl

theorem CountsOnly.trans {m m' m'' : Metrics} (h : CountsOnly ns m m') (h' : CountsOnly ns m' m'') :
    CountsOnly ns m m'' := fun r hr => (h' r hr).trans (h r hr)

theorem count_only {r : Series} (h : ("namespace", ns) ∈ r.labels) (m : Metrics) :
    CountsOnly ns m (m.count r) := by
  intro s hs
  have apart : s ≠ r := by
    rintro rfl
    exact hs h
  rw [count, Dictionary.get?_set_of_ne (by simpa using apart)]

theorem mem_labels {label value : String} {r : Series} :
    (label, value) ∈ r.labels ↔ (label, value) ∈ r.counter.labels.zip r.values :=
  List.mem_mergeSort

theorem acted_only (action : String) (m : Metrics) : CountsOnly ns m (m.acted action ns) :=
  count_only (mem_labels.mpr (by simp [Counter.labels])) m

theorem reconciled_only (failed : Bool) (m : Metrics) :
    CountsOnly ns m (m.reconciled ns failed) := by
  have counted : ∀ counter, counter.labels = ["resource", "namespace"] → ∀ m : Metrics,
      CountsOnly ns m (m.count ⟨counter, ["pod", ns]⟩) := fun counter hc m =>
    count_only (mem_labels.mpr (by simp [hc])) m
  cases failed with
  | false => exact counted .reconciles rfl m
  | true => exact (counted .reconciles rfl m).trans (counted .reconcileErrors rfl _)

end Metrics

variable [ClusterApi σ] [ClusterApi σ']

/-- Two sites since they began: both clusters were asked the same calls, all of them within a
namespace and one of its policies, and nothing was counted elsewhere. -/
structure InStep (ns : String) (policy : Option Json) (s₀ : Site σ τ) (t₀ : Site σ' τ)
    (s : Site σ τ) (t : Site σ' τ) : Prop where
  asked : ∃ calls, AllWithin ns policy calls ∧ s.cluster = afterAll calls s₀.cluster ∧
    t.cluster = afterAll calls t₀.cluster
  counted : s₀.metrics.CountsOnly ns s.metrics

variable {s₀ : Site σ τ} {t₀ : Site σ' τ}

theorem InStep.start : InStep ns policy s₀ t₀ s₀ t₀ :=
  ⟨⟨[], nofun, rfl, rfl⟩, .refl _⟩

namespace Tracks

theorem beside {f : Site σ τ → Site σ τ} {g : Site σ' τ → Site σ' τ}
    (hf : ∀ s, (f s).cluster = s.cluster ∧ (f s).metrics = s.metrics)
    (hg : ∀ t, (g t).cluster = t.cluster) :
    Tracks (InStep ns policy s₀ t₀) (fun _ => True) (Act.change f) (Act.change g) := by
  intro s t ⟨asked, counted⟩
  refine ⟨⟨?_, ?_⟩, rfl, fun _ _ => trivial⟩
  · rw [Act.change_apply, Act.change_apply, (hf s).1, hg t]
    exact asked
  · rw [Act.change_apply, (hf s).2]
    exact counted

theorem say (level : LogLevel) (text : String) :
    Tracks (InStep ns policy s₀ t₀) (fun _ => True) (Site.say level text) (Site.say level text) :=
  beside (fun _ => ⟨rfl, rfl⟩) fun _ => rfl

theorem sleep [TimeScale τ] (time : τ) :
    Tracks (InStep ns policy s₀ t₀) (fun _ => True) (Site.sleep time) (Site.sleep time) :=
  beside (fun _ => ⟨rfl, rfl⟩) fun _ => rfl

theorem tally {f : Metrics → Metrics} (h : ∀ m, Metrics.CountsOnly ns m (f m)) :
    Tracks (InStep ns policy s₀ t₀) (fun _ => True) (Site.tally f) (Site.tally f) :=
  fun s _ hst => ⟨⟨hst.asked, hst.counted.trans (h s.metrics)⟩, rfl, fun _ _ => trivial⟩

theorem call (alike : AnswersAlike ns policy s₀.cluster t₀.cluster) (call : ClusterCall)
    (hc : call.Within ns policy) :
    Tracks (InStep ns policy s₀ t₀)
      (fun x => ∃ calls, AllWithin ns policy calls ∧
        call.reply (afterAll calls s₀.cluster) = .ok x)
      (Site.call call.run) (Site.call call.run) := by
  rintro s t ⟨⟨calls, within, hs, ht⟩, counted⟩
  refine ⟨⟨⟨calls ++ [call], within.concat hc, ?_, ?_⟩, counted⟩, ?_, fun x hx => ?_⟩
  · rw [afterAll_concat, ← hs]
    rfl
  · rw [afterAll_concat, ← ht]
    rfl
  · have same := alike calls within call hc
    rw [← hs, ← ht] at same
    exact same
  · refine ⟨calls, within, ?_⟩
    rw [← hs]
    exact hx

end Tracks

/-! ### Reading policies -/

theorem forEach_say_tracks (warnings : List String) :
    Tracks (InStep ns policy s₀ t₀) (fun _ => True)
      (Act.forEach warnings (Site.say .warning)) (Act.forEach warnings (Site.say .warning)) := by
  induction warnings with
  | nil => exact Tracks.pure trivial
  | cons w r ih => exact Tracks.bind (Tracks.say .warning w) fun _ _ => ih

theorem readWithWarnings_tracks (x : ApiObject) :
    Tracks (InStep ns policy s₀ t₀) (fun p => x.policy? = .ok p)
      (readWithWarnings x) (readWithWarnings x) := by
  have read : ∀ v, Tracks (InStep ns policy s₀ t₀) (fun p => (Policy.ofJson v []).1 = .ok p)
      (readLogged v) (readLogged v) := fun v =>
    Tracks.bind (forEach_say_tracks _) fun _ _ => Tracks.lift _ fun _ h => h
  cases x with
  | untyped v => exact read v
  | untypedList fields items => exact read (.obj fields)
  | _ => exact Tracks.fail _

theorem readAllWithWarnings_tracks (objects : List ApiObject) :
    Tracks (InStep ns policy s₀ t₀) (fun ps => List.Forall₂ (·.policy? = .ok ·) objects ps)
      (readAllWithWarnings objects) (readAllWithWarnings objects) := by
  induction objects with
  | nil => exact Tracks.pure .nil
  | cons x r ih =>
      refine Tracks.bind (readWithWarnings_tracks x) fun p hp => ?_
      exact Tracks.bind ih fun ps hps => Tracks.pure (.cons hp hps)

/-! ### The parts of a reconcile -/

omit [ClusterApi σ] [ClusterApi σ'] in
theorem eventAbout_ns {source type reason message : Json} {p : Policy} {e : ClusterEvent}
    (hp : p.ns = .str ns) (he : eventAbout source p type reason message = .ok e) :
    e.ns = some ns := by
  unfold eventAbout at he
  simp only [hp, optionalText, bind, Except.bind] at he
  repeat' split at he
  all_goals first | cases he; rfl | cases he

section parts

variable (alike : AnswersAlike ns policy s₀.cluster t₀.cluster)

include alike

theorem listNamespace_tracks (own : ListsOwn ns policy s₀.cluster) :
    Tracks (InStep ns policy s₀ t₀) (fun pods => ∀ q ∈ pods, q.metadata.bind (·.ns) = some ns)
      (listNamespace (.str ns)) (listNamespace (.str ns)) := by
  unfold listNamespace
  have called := Tracks.call alike (.listPods (.str ns)) rfl
  refine Tracks.bind called.attempt fun r hr => ?_
  cases r with
  | ok pods =>
      obtain ⟨calls, within, listed⟩ := hr pods rfl
      exact Tracks.pure (own calls within pods listed)
  | error f => cases f <;> exact Tracks.fail _

theorem evaluateNamespace_tracks (own : ListsOwn ns policy s₀.cluster) (p : Policy) :
    Tracks (InStep ns policy s₀ t₀)
      (fun x => ∀ q ∈ x.2, q.metadata.bind (·.ns) = some ns)
      (evaluateNamespace (.str ns) p) (evaluateNamespace (.str ns) p) := by
  unfold evaluateNamespace
  refine Tracks.bind (listNamespace_tracks alike own) fun pods hpods => ?_
  exact Tracks.bind (Tracks.lift _ fun _ _ => trivial) fun v (_ : True) => Tracks.pure hpods

theorem deletePod_tracks {q : Pod} (hq : q.metadata.bind (·.ns) = some ns) :
    Tracks (InStep ns policy s₀ t₀) (fun _ => True) (deletePod q) (deletePod q) := by
  unfold deletePod
  cases hm : q.metadata with
  | none => exact Tracks.fail _
  | some m =>
      rw [hm] at hq
      have called := Tracks.call alike (.deletePod m.ns m.name deleteGraceSeconds) hq
      refine Tracks.bind called.attempt fun r _ => ?_
      cases r with
      | ok x => exact Tracks.pure trivial
      | error f =>
          cases f with
          | refused r =>
              dsimp only
              split
              · exact Tracks.pure trivial
              · exact Tracks.fail _
          | _ => exact Tracks.fail _

theorem evict_tracks [TimeScale τ] (o : EnforcementOptions) (p : Policy) (v : Verdict) (round : Nat)
    {q : Pod} (hq : q.metadata.bind (·.ns) = some ns) :
    Tracks (InStep ns policy s₀ t₀) (fun _ => True)
      (evict o (.str ns) p v round q) (evict o (.str ns) p v round q) := by
  unfold evict
  refine Tracks.bind (deletePod_tracks alike hq).attempt fun r _ => ?_
  cases r with
  | ok x =>
      refine Tracks.bind (Tracks.say _ _) fun _ _ => ?_
      have paused : Tracks (InStep ns policy s₀ t₀) (fun _ => True)
          (Site.sleep convergencePause >>= fun _ => Pure.pure Attempt.deleted)
          (Site.sleep convergencePause >>= fun _ => Pure.pure Attempt.deleted) :=
        Tracks.bind (Tracks.sleep _) fun _ _ => Tracks.pure trivial
      dsimp only
      split
      · exact Tracks.bind (Tracks.tally (Metrics.acted_only "delete")) fun _ _ => paused
      · exact paused
  | error f =>
      cases f with
      | refused r =>
          refine Tracks.bind (Tracks.say _ _) fun _ _ => ?_
          exact Tracks.bind (Tracks.sleep _) fun _ _ => Tracks.pure trivial
      | _ => exact Tracks.fail _

theorem concludeEnforcement_tracks (own : ListsOwn ns policy s₀.cluster) (o : EnforcementOptions)
    (p : Policy) (last : Option Refusal) :
    Tracks (InStep ns policy s₀ t₀) (fun _ => True)
      (concludeEnforcement o (.str ns) p last) (concludeEnforcement o (.str ns) p last) := by
  unfold concludeEnforcement
  refine Tracks.bind (evaluateNamespace_tracks alike own p) fun (v, pods) _ => ?_
  dsimp only
  split
  · cases last with
    | some r => exact Tracks.fail _
    | none => exact Tracks.bind (Tracks.say _ _) fun _ _ => Tracks.pure trivial
  · exact Tracks.pure trivial

theorem enforceRounds_tracks [TimeScale τ] (own : ListsOwn ns policy s₀.cluster)
    {o : EnforcementOptions}
    (choice : ∀ pods reason q, o.choose pods reason = .ok (some q) → q ∈ pods) (p : Policy)
    (left round : Nat) (last : Option Refusal) :
    Tracks (InStep ns policy s₀ t₀) (fun _ => True)
      (enforceRounds o (.str ns) p left round last)
      (enforceRounds o (.str ns) p left round last) := by
  induction left generalizing round last with
  | zero => exact concludeEnforcement_tracks alike own o p last
  | succ left ih =>
      unfold enforceRounds
      refine Tracks.bind (evaluateNamespace_tracks alike own p) fun (v, pods) hpods => ?_
      dsimp only
      split
      · exact Tracks.pure trivial
      · have chosen : Tracks (InStep ns policy s₀ t₀)
            (fun x => ∀ q, x = some q → q.metadata.bind (·.ns) = some ns)
            (Act.lift (o.choose pods v.reason)) (Act.lift (o.choose pods v.reason)) := by
          refine Tracks.lift _ ?_
          rintro x hx q rfl
          exact hpods q (choice pods v.reason q hx)
        refine Tracks.bind chosen fun x hx => ?_
        cases x with
        | none => exact Tracks.bind (Tracks.say _ _) fun _ _ => Tracks.pure trivial
        | some q =>
            dsimp only
            split
            · exact Tracks.bind (Tracks.say _ _) fun _ _ => Tracks.pure trivial
            · refine Tracks.bind (evict_tracks alike o p v round (hx q rfl)) fun attempt _ => ?_
              cases attempt with
              | deleted => exact ih _ _
              | refused r => exact ih _ _

theorem readPolicy_tracks {name : Json} (hname : policy = some name) :
    Tracks (InStep ns policy s₀ t₀) (fun _ => True)
      (readPolicy (.str ns) name) (readPolicy (.str ns) name) := by
  unfold readPolicy
  have called := Tracks.call alike (.getPolicy (.str ns) name) ⟨rfl, hname⟩
  refine Tracks.bind called.attempt fun r _ => ?_
  cases r with
  | ok v => exact Tracks.pure trivial
  | error f =>
      cases f with
      | refused r =>
          dsimp only
          split
          · exact Tracks.pure trivial
          · exact Tracks.fail _
      | _ => exact Tracks.fail _

theorem writeStatus_tracks {name : Json} (hname : policy = some name) (status : Json) :
    Tracks (InStep ns policy s₀ t₀) (fun _ => True)
      (writeStatus (.str ns) name status) (writeStatus (.str ns) name status) := by
  unfold writeStatus
  refine Tracks.bind (readPolicy_tracks alike hname) fun x _ => ?_
  cases x with
  | none => exact Tracks.bind (Tracks.say _ _) fun _ _ => Tracks.pure trivial
  | some _ =>
      refine Tracks.bind (Tracks.lift _ fun _ _ => trivial) fun body (_ : True) => ?_
      exact (Tracks.call alike (.patchStatus (.str ns) name body) ⟨rfl, hname⟩).map
        fun _ _ => trivial

theorem publishStatus_tracks {name : Json} (hname : policy = some name) (status : Json) :
    Tracks (InStep ns policy s₀ t₀) (fun _ => True)
      (publishStatus (.str ns) name status) (publishStatus (.str ns) name status) := by
  unfold publishStatus
  refine Tracks.bind (writeStatus_tracks alike hname status).attempt fun r _ => ?_
  cases r with
  | ok v => exact Tracks.pure trivial
  | error f => cases f <;> exact Tracks.fail _

theorem recordEvent_tracks {p : Policy} (hp : p.ns = .str ns) (type : EventType)
    (reason message : String) :
    Tracks (InStep ns policy s₀ t₀) (fun _ => True)
      (recordEvent p type reason message) (recordEvent p type reason message) := by
  unfold recordEvent recordEventFrom
  refine Tracks.bind (Tracks.lift _ fun _ he => eventAbout_ns hp he) fun e he => ?_
  refine Tracks.bind (Tracks.call alike (.createEvent e) he).attempt fun r _ => ?_
  cases r with
  | ok e => exact Tracks.pure trivial
  | error f => exact Tracks.bind (Tracks.say _ _) fun _ _ => Tracks.pure trivial

open Operator

variable [TimeScale τ] {o : EnforcementOptions} {p : Policy}

theorem enforceAndPublish_tracks (own : ListsOwn ns policy s₀.cluster)
    (choice : ∀ pods reason q, o.choose pods reason = .ok (some q) → q ∈ pods)
    (hname : policy = some p.name) :
    Tracks (InStep ns policy s₀ t₀) (fun _ => True)
      (enforceAndPublish o (.str ns) p) (enforceAndPublish o (.str ns) p) := by
  unfold enforceAndPublish
  refine Tracks.bind (enforceRounds_tracks alike own choice p _ _ _) fun v _ => ?_
  refine Tracks.bind (Tracks.lift _ fun _ _ => trivial) fun status (_ : True) => ?_
  exact Tracks.bind (publishStatus_tracks alike hname _) fun _ _ => Tracks.pure trivial

theorem reconcile_tracks (own : ListsOwn ns policy s₀.cluster)
    (choice : ∀ pods reason q, o.choose pods reason = .ok (some q) → q ∈ pods)
    (hname : policy = some p.name) (hp : p.ns = .str ns) :
    Tracks (InStep ns policy s₀ t₀) (fun _ => True)
      (reconcile o (.str ns) p) (reconcile o (.str ns) p) := by
  unfold reconcile
  refine Tracks.bind (recordEvent_tracks alike hp _ _ _) fun _ _ => ?_
  refine Tracks.bind (enforceAndPublish_tracks alike own choice hname).attempt fun r _ => ?_
  have reported : ∀ (failed : Bool) type reason message,
      Tracks (InStep ns policy s₀ t₀) (fun _ => True)
        (Site.tally (.reconciled (Json.str ns).display failed) >>= fun _ =>
          recordEvent p type reason message >>= fun _ => Pure.pure ())
        (Site.tally (.reconciled (Json.str ns).display failed) >>= fun _ =>
          recordEvent p type reason message >>= fun _ => Pure.pure ()) := fun failed type r m =>
    Tracks.bind (Tracks.tally (Metrics.reconciled_only failed)) fun _ _ =>
      Tracks.bind (recordEvent_tracks alike hp type r m) fun _ _ => Tracks.pure trivial
  cases r with
  | ok v => exact Tracks.bind (reported false _ _ _) fun _ _ => Tracks.pure trivial
  | error f =>
      dsimp only
      split
      · exact Tracks.bind (reported true _ _ _) fun _ _ => Tracks.fail _
      · exact Tracks.fail _

end parts

end QuotaWarden
