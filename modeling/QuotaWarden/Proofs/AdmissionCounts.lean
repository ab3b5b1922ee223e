import QuotaWarden.Operator.Basic
import QuotaWarden.Proofs.CandidateDecision
import QuotaWarden.Proofs.RequestCalls
import Mathlib.Algebra.BigOperators.Group.List.Lemmas
import Mathlib.Algebra.GroupWithZero.Nat

/-! # Admissions are accounted for

A decision on a pod is counted in up to four families of counters: hits and misses of the look-up of
a policy, answers by namespace, and refusals by namespace and reason. These agree with each other
and with the decisions that were made.

* `Answer` is how a decision came about; `decideAdmission_counts` says what is counted for it.
* `Admissions` are the runs: decisions, and in between anything that does not touch these counters.
* `Accounted` says what the counters are after some answers. A decision keeps it
  (`Accounted.count`), so a run does (`Admissions.accounted`).

`admissions_accounted` puts them together. -/

namespace QuotaWarden

/-! ### Sums of counts -/

/-- `countP p` is the sum of the counts by `kind`. -/
theorem sum_countP {α κ : Type} [DecidableEq κ] {kinds : List κ} (hd : kinds.Nodup) (kind : α → κ)
    (p : α → Bool) (xs : List α) (h : ∀ x ∈ xs, p x = true → kind x ∈ kinds) :
    (kinds.map fun k => xs.countP fun x => decide (kind x = k) && p x).sum = xs.countP p := by
  induction xs with
  | nil => simp
  | cons x xs ih =>
      rw [List.forall_mem_cons] at h
      simp only [List.countP_cons, List.sum_map_add, ih h.2]
      congr 1
      cases hp : p x with
      | false => simp
      | true =>
          have own : (kinds.map fun k => if kind x = k then 1 else 0).sum =
              kinds.count (kind x) := by
            rw [List.sum_map_eq_nsmul_single (kind x) (fun k => if kind x = k then 1 else 0)
              fun k hk _ => if_neg (Ne.symm hk), if_pos rfl, Nat.nsmul_eq_mul, Nat.mul_one]
          simpa [List.count_eq_one_of_mem hd (h.1 hp)] using own

/-! ### One decision -/

theorem Reason.name_injective : Function.Injective Reason.name := by
  intro r r' h
  cases r <;> cases r' <;> first | rfl | simp [name] at h

/-- How a decision on a pod came about: no policy governs its namespace, the pods could not be
listed, no limit is exceeded, or one is. -/
inductive Answer where
  | ungoverned
  | unlisted
  | within
  | denied (reason : Reason)
deriving DecidableEq

namespace Answer

/-- The result that an answer is counted under. -/
def result : Answer → String
  | ungoverned => "allowed_no_policy"
  | unlisted => "allowed_on_error"
  | within => "allowed"
  | denied _ => "denied"

/-- The results of answers. -/
def results : List String := ["allowed_no_policy", "allowed_on_error", "allowed", "denied"]

/-- The reason that an answer is counted under; an empty one is not counted. -/
def reason : Answer → String
  | denied r => r.name
  | _ => ""

/-- A decision that came about in this way. -/
def Gives : Answer → Decision → Prop
  | denied r, d => d.allowed = false ∧ d.reason = r ∧ r ≠ .none
  | _, d => d.allowed = true

/-- Counts an answer: one look-up and one result, and the reason of a refusal. -/
def count (a : Answer) (ns : String) (m : Metrics) : Metrics :=
  (m.lookedUp (decide (a ≠ ungoverned))).admitted ns a.result a.reason

theorem result_mem (a : Answer) : a.result ∈ results := by cases a <;> simp [result, results]

theorem nodup_results : results.Nodup := by simp [results]

theorem result_eq_allowed_no_policy {a : Answer} :
    a.result = "allowed_no_policy" ↔ a = ungoverned := by
  cases a <;> simp [result]

variable {a : Answer} {d : Decision} {r : Reason}

theorem Gives.result_eq_denied (h : a.Gives d) : a.result = "denied" ↔ d.allowed = false := by
  cases a with
  | denied _ => simp [result, h.1]
  | _ => simp [result, show d.allowed = true from h]

theorem Gives.reason_eq_name (h : a.Gives d) :
    a.reason = r.name ↔ d.allowed = false ∧ d.reason = r := by
  cases a with
  | denied r' =>
      obtain ⟨hd, rfl, -⟩ := h
      simp only [reason, hd, true_and]
      exact Reason.name_injective.eq_iff
  | _ =>
      have named : r.name ≠ "" := by cases r <;> decide
      simp [reason, show d.allowed = true from h, named.symm]

end Answer

theorem Usage.reason_of_denied {u : Usage} {p : Policy} {d : Decision} (h : u.decide p = .ok d)
    (hd : d.allowed = false) : d.reason ≠ .none := by
  intro hr
  have told := denialText_of_decide h hd
  rw [hr] at told
  cases told

section

variable {σ τ : Type} [ClusterApi σ]

theorem decideUnder_counts (p : Policy) (ns : Json) (pod : Pod) (s : Site σ τ) :
    (∃ f, (decideUnder p ns pod s).1 = .error f ∧
      (decideUnder p ns pod s).2.metrics = s.metrics) ∨
    ∃ d, ∃ a : Answer, a ≠ .ungoverned ∧ a.Gives d ∧ (decideUnder p ns pod s).1 = .ok d ∧
      (decideUnder p ns pod s).2.metrics = s.metrics.admitted ns.display a.result a.reason := by
  unfold decideUnder
  rw [Act.bind_apply, Act.attempt_apply]
  dsimp only
  cases (Site.call (ClusterApi.listPods ns) s).1 with
  | error f => exact Or.inr ⟨.allow, .unlisted, by decide, rfl, rfl, rfl⟩
  | ok pods =>
      dsimp only
      rw [Act.bind_apply, Act.lift_apply]
      cases (do (← Usage.ofPods pods).withPod pod : Except Fault Usage) with
      | error f => exact Or.inl ⟨f, rfl, rfl⟩
      | ok u =>
          dsimp only
          rw [Act.bind_apply, Act.lift_apply]
          cases hd : u.decide p with
          | error f => exact Or.inl ⟨f, rfl, rfl⟩
          | ok d =>
              dsimp only
              cases ha : d.allowed with
              | true => exact Or.inr ⟨d, .within, by decide, ha, by rfl, by rfl⟩
              | false =>
                  have gives : (Answer.denied d.reason).Gives d :=
                    ⟨ha, rfl, Usage.reason_of_denied hd ha⟩
                  exact Or.inr ⟨d, .denied d.reason, nofun, gives, by rfl, by rfl⟩

/-- A decision is counted by the `Answer` that gives it; of one that fails, at most the look-up. -/
theorem decideAdmission_counts (policies : WatchCache) (ns : Json) (pod : Pod) (s : Site σ τ) :
    (∃ f, (decideAdmission policies ns pod s).1 = .error f ∧
      ((decideAdmission policies ns pod s).2.metrics = s.metrics ∨
        (decideAdmission policies ns pod s).2.metrics = s.metrics.lookedUp true)) ∨
    ∃ d, ∃ a : Answer, a.Gives d ∧ (decideAdmission policies ns pod s).1 = .ok d ∧
      (decideAdmission policies ns pod s).2.metrics = a.count ns.display s.metrics := by
  obtain ⟨notes, journaled⟩ := governingPolicy?_journaled policies ns s
  unfold decideAdmission
  rw [Act.bind_apply]
  generalize governingPolicy? policies ns s = found at journaled ⊢
  obtain ⟨r, t⟩ := found
  obtain rfl : t = { s with notes } := journaled
  rcases r with f | none | p
  · exact Or.inl ⟨f, rfl, Or.inl rfl⟩
  · exact Or.inr ⟨.allow, .ungoverned, rfl, rfl, rfl⟩
  · rcases decideUnder_counts p ns pod { s with notes, metrics := s.metrics.lookedUp true } with
      ⟨f, failed, counted⟩ | ⟨d, a, ha, gives, decided, counted⟩
    · exact Or.inl ⟨f, failed, Or.inr counted⟩
    · refine Or.inr ⟨d, a, gives, decided, ?_⟩
      rw [Answer.count, decide_eq_true ha]
      exact counted

end

/-! ### Counters after some answers -/

/-- The series of admissions: those that decisions count. -/
def Counter.ofAdmissions : Counter → Bool
  | .admissions | .violations | .cacheHits | .cacheMisses => true
  | .reconciles | .reconcileErrors | .actions => false

/-- A decision on a pod of a namespace. -/
structure AdmissionCall where
  ns : Json
  decision : Decision

/-- Whether a decision is about a namespace, by its name. -/
def AdmissionCall.about (ns : String) (c : AdmissionCall) : Bool := decide (c.ns.display = ns)

/-- Whether a decision refuses a pod for a reason. -/
def AdmissionCall.deniedFor (r : Reason) (c : AdmissionCall) : Bool :=
  !c.decision.allowed && decide (c.decision.reason = r)

/-- What admissions have counted is the number of answers of each kind. -/
structure Accounted (entries : List (AdmissionCall × Answer)) (m : Metrics) : Prop where
  hits : m.value ⟨.cacheHits, []⟩ = entries.countP fun e => decide (e.2 ≠ .ungoverned)
  misses : m.value ⟨.cacheMisses, []⟩ = entries.countP fun e => decide (e.2 = .ungoverned)
  results : ∀ ns result, m.value ⟨.admissions, [ns, result]⟩ =
    entries.countP fun e => decide (e.2.result = result) && e.1.about ns
  reasons : ∀ ns reason, reason ≠ "" → m.value ⟨.violations, [ns, reason]⟩ =
    entries.countP fun e => decide (e.2.reason = reason) && e.1.about ns

theorem Metrics.value_admitted (ns result reason : String) (r : Series) (m : Metrics) :
    (m.admitted ns result reason).value r =
      m.value r + (if r = ⟨.admissions, [ns, result]⟩ then 1 else 0) +
        if reason ≠ "" ∧ r = ⟨.violations, [ns, reason]⟩ then 1 else 0 := by
  unfold admitted
  dsimp only
  by_cases h : reason = ""
  · rw [if_pos h, value_count_add]
    simp [h]
  · rw [if_neg h, value_count_add, value_count_add]
    simp [h]

theorem Answer.value_count (a : Answer) (ns : String) (r : Series) (m : Metrics) :
    (a.count ns m).value r =
      m.value r +
        (if r = ⟨if a = .ungoverned then .cacheMisses else .cacheHits, []⟩ then 1 else 0) +
        (if r = ⟨.admissions, [ns, a.result]⟩ then 1 else 0) +
        if a.reason ≠ "" ∧ r = ⟨.violations, [ns, a.reason]⟩ then 1 else 0 := by
  rw [count, Metrics.value_admitted, Metrics.lookedUp, Metrics.value_count_add]
  by_cases h : a = .ungoverned <;> simp [h]

theorem Accounted.zero : Accounted [] .zero := ⟨rfl, rfl, fun _ _ => rfl, fun _ _ _ => rfl⟩

theorem Accounted.congr {entries : List (AdmissionCall × Answer)} {m m' : Metrics}
    (h : Accounted entries m)
    (same : ∀ s : Series, s.counter.ofAdmissions = true → m'.value s = m.value s) :
    Accounted entries m' :=
  ⟨(same _ rfl).trans h.hits, (same _ rfl).trans h.misses,
    fun ns result => (same _ rfl).trans (h.results ns result),
    fun ns reason hr => (same _ rfl).trans (h.reasons ns reason hr)⟩

theorem Accounted.count {entries : List (AdmissionCall × Answer)} {m : Metrics}
    (h : Accounted entries m) (c : AdmissionCall) (a : Answer) :
    Accounted (entries ++ [(c, a)]) (a.count c.ns.display m) := by
  constructor
  · rw [Answer.value_count, h.hits, List.countP_append]
    by_cases ha : a = .ungoverned <;> simp [ha]
  · rw [Answer.value_count, h.misses, List.countP_append]
    by_cases ha : a = .ungoverned <;> simp [ha]
  · intro ns result
    rw [Answer.value_count, h.results, List.countP_append]
    have counted :
        (ns = c.ns.display ∧ result = a.result) ↔ a.result = result ∧ c.ns.display = ns :=
      ⟨fun ⟨h₁, h₂⟩ => ⟨h₂.symm, h₁.symm⟩, fun ⟨h₁, h₂⟩ => ⟨h₂.symm, h₁.symm⟩⟩
    simp [List.countP_cons, AdmissionCall.about, counted]
  · intro ns reason hr
    rw [Answer.value_count, h.reasons ns reason hr, List.countP_append]
    have counted : (a.reason ≠ "" ∧ ns = c.ns.display ∧ reason = a.reason) ↔
        a.reason = reason ∧ c.ns.display = ns := by
      constructor
      · rintro ⟨_, rfl, rfl⟩
        exact ⟨rfl, rfl⟩
      · rintro ⟨rfl, rfl⟩
        exact ⟨hr, rfl, rfl⟩
    simp [List.countP_cons, AdmissionCall.about, counted]

/-! ### Runs -/

variable {σ τ : Type} [ClusterApi σ]

/-- The operator decides on a pod, by the policies that it knows. -/
def Operator.decideOn (ns : Json) (pod : Pod) : Act (Operator σ τ) Decision := fun o =>
  Operator.onSite (decideAdmission o.policies ns pod) o

/-- The decisions that were made on one set of counters, all of which came out, and the operator
after them. In between anything may happen to the operator, as long as the counters of admissions
stay as they are. -/
inductive Admissions : List AdmissionCall → Operator σ τ → Prop
  | none {o : Operator σ τ} : o.site.metrics = .zero → Admissions [] o
  | decided {calls : List AdmissionCall} {o o' : Operator σ τ} {ns : Json} {pod : Pod}
      {d : Decision} : Admissions calls o → o.decideOn ns pod = (.ok d, o') →
      Admissions (calls ++ [⟨ns, d⟩]) o'
  | meanwhile {calls : List AdmissionCall} {o o' : Operator σ τ} : Admissions calls o →
      (∀ s : Series, s.counter.ofAdmissions = true →
        o'.site.metrics.value s = o.site.metrics.value s) → Admissions calls o'

variable {calls : List AdmissionCall} {o : Operator σ τ}

/-- The counters are those of answers that give the decisions, by induction on the run. -/
theorem Admissions.accounted (h : Admissions calls o) :
    ∃ entries : List (AdmissionCall × Answer), entries.map (·.1) = calls ∧
      (∀ e ∈ entries, e.2.Gives e.1.decision) ∧ Accounted entries o.site.metrics := by
  induction h with
  | none hzero => exact ⟨[], rfl, by simp, by rw [hzero]; exact .zero⟩
  | @decided calls o o' ns pod d _ e ih =>
      obtain ⟨entries, rfl, gives, accounted⟩ := ih
      have site : (decideAdmission o.policies ns pod o.site).1 = .ok d ∧
          o'.site = (decideAdmission o.policies ns pod o.site).2 :=
        ⟨congrArg Prod.fst e, (congrArg (·.2.site) e).symm⟩
      rcases decideAdmission_counts o.policies ns pod o.site with
        ⟨f, failed, _⟩ | ⟨d', a, gives', decided, counted⟩
      · cases failed.symm.trans site.1
      · obtain rfl : d' = d := Except.ok.inj (decided.symm.trans site.1)
        refine ⟨entries ++ [(⟨ns, d'⟩, a)], by simp, ?_, ?_⟩
        · rw [List.forall_mem_append, List.forall_mem_singleton]
          exact ⟨gives, gives'⟩
        · rw [site.2, counted]
          exact accounted.count ⟨ns, d'⟩ a
  | meanwhile _ same ih =>
      obtain ⟨entries, hcalls, gives, accounted⟩ := ih
      exact ⟨entries, hcalls, gives, accounted.congr same⟩

/-- `decideOn` changes neither the operator beside its site, nor the cluster beside its calls, nor
counters that are not of admissions. -/
theorem Operator.decideOn_rest (ns : Json) (pod : Pod) (o : Operator σ τ) :
    (o.decideOn ns pod).2 = { o with site := (o.decideOn ns pod).2.site } ∧
      (∀ (views : ClusterViews σ) (podNs name : Option String),
        views.pod podNs name (o.decideOn ns pod).2.site.cluster =
          views.pod podNs name o.site.cluster) ∧
      ∀ s : Series, s.counter.ofAdmissions = false →
        (o.decideOn ns pod).2.site.metrics.value s = o.site.metrics.value s := by
  refine ⟨rfl, fun views podNs name =>
    (decideAdmission_listsOnly o.policies ns pod o.site).pod views podNs name, fun s hs => ?_⟩
  change (decideAdmission o.policies ns pod o.site).2.metrics.value s = _
  have other : ∀ {c : Counter} (values : List String), c.ofAdmissions = true → s ≠ ⟨c, values⟩ := by
    rintro c values hc rfl
    cases hc.symm.trans hs
  rcases decideAdmission_counts o.policies ns pod o.site with
    ⟨_, _, counted | counted⟩ | ⟨_, a, _, _, counted⟩
  · rw [counted]
  · rw [counted, Metrics.lookedUp, Metrics.value_count_add, if_neg (other [] rfl)]
    rfl
  · rw [counted, Answer.value_count, if_neg (other [] (by split <;> rfl)),
      if_neg (other _ rfl), if_neg fun h => other _ rfl h.2]
    rfl

/-! ### The accounts -/

/-- **Admissions are accounted for.** After a run of decisions each of them was a hit or a miss of
the look-up of a policy, and has one result in its namespace; the misses are the answers without a
policy, and the refusals in a namespace are its violations, each counted under the reason that the
decision gives. A decision, whether it comes out or fails, leaves the caches and the enforced
policies, the pods of the cluster and the counters of reconciles alone. -/
theorem admissions_accounted (h : Admissions calls o) :
    let counted := fun counter values => o.site.metrics.value ⟨counter, values⟩
    counted .cacheHits [] + counted .cacheMisses [] = calls.length ∧
      (∀ ns, (Answer.results.map fun result => counted .admissions [ns, result]).sum =
        calls.countP (·.about ns)) ∧
      (∀ namespaces : List String, namespaces.Nodup →
        (∀ c ∈ calls, c.ns.display ∈ namespaces) →
        (namespaces.map fun ns => counted .admissions [ns, "allowed_no_policy"]).sum =
          counted .cacheMisses []) ∧
      (∀ ns, counted .admissions [ns, "denied"] =
        (Reason.all.map fun r => counted .violations [ns, r.name]).sum) ∧
      (∀ ns r, counted .violations [ns, Reason.name r] =
        calls.countP fun c => c.deniedFor r && c.about ns) ∧
      ∀ (ns : Json) (pod : Pod) (before : Operator σ τ),
        let after := (before.decideOn ns pod).2
        after = { before with site := after.site } ∧
          (∀ (views : ClusterViews σ) (podNs name : Option String),
            views.pod podNs name after.site.cluster =
              views.pod podNs name before.site.cluster) ∧
          ∀ s : Series, s.counter.ofAdmissions = false →
            after.site.metrics.value s = before.site.metrics.value s := by
  intro counted
  obtain ⟨entries, rfl, gives, accounted⟩ := h.accounted
  have violations (ns : String) (r : Reason) : counted .violations [ns, r.name] =
      (entries.map (·.1)).countP fun c => c.deniedFor r && c.about ns := by
    refine (accounted.reasons ns r.name (by cases r <;> decide)).trans ?_
    rw [List.countP_map]
    refine List.countP_congr fun e he => ?_
    simp [AdmissionCall.deniedFor, (gives e he).reason_eq_name]
  have denied (ns : String) : counted .admissions [ns, "denied"] =
      (entries.map (·.1)).countP fun c => !c.decision.allowed && c.about ns := by
    refine (accounted.results ns "denied").trans ?_
    rw [List.countP_map]
    refine List.countP_congr fun e he => ?_
    simp [(gives e he).result_eq_denied]
  refine ⟨?_, fun ns => ?_, fun namespaces hd covered => ?_, fun ns => ?_, violations,
    Operator.decideOn_rest⟩
  · simp only [counted, accounted.hits, accounted.misses, List.length_map]
    rw [List.length_eq_countP_add_countP (fun e => decide (e.2 = .ungoverned)) (l := entries),
      Nat.add_comm]
    simp
  · simp only [counted, accounted.results]
    rw [sum_countP Answer.nodup_results (fun e : AdmissionCall × Answer => e.2.result)
      (fun e => e.1.about ns) entries fun e _ _ => e.2.result_mem, List.countP_map]
    rfl
  · simp only [counted, accounted.results, accounted.misses]
    have own := sum_countP hd (fun e : AdmissionCall × Answer => e.1.ns.display)
      (fun e => decide (e.2 = .ungoverned)) entries fun e he _ =>
        covered _ (List.mem_map_of_mem he)
    simpa [Answer.result_eq_allowed_no_policy, AdmissionCall.about, Bool.and_comm] using own
  · simp only [denied, violations]
    have distinct : Reason.all.Nodup := by decide
    have own := sum_countP distinct (fun c : AdmissionCall => c.decision.reason)
      (fun c => !c.decision.allowed && c.about ns) (entries.map (·.1))
      fun c _ _ => by cases c.decision.reason <;> decide
    rw [← own]
    simp [AdmissionCall.deniedFor, Bool.and_left_comm, Bool.and_assoc]

/-- `onePod` as an object of the API. -/
def onePodObject : ApiObject :=
  .untyped (.obj [("metadata", .obj [("name", .str "quota"), ("namespace", .str "team-a")]),
    ("spec", .obj [("maxPods", .int 1)])])

/-- One call without a policy, one whose listing fails and one that is refused: all three were
looked up, and the refusal is one of the number of pods. -/
theorem admissions_accounted_refusal :
    let web : Pod := ⟨some ⟨some "web", some "team-a", none, none⟩, none, none⟩
    let down : Refusal := ⟨.int 503, .str "Unavailable"⟩
    let cluster : Oracle := ⟨fun n => if n = 0 then .error down else .ok [web], fun _ => none, []⟩
    let o : Operator Oracle Float := { Operator.start cluster with
      policies :=
        ⟨"policies", Index.empty.store ⟨.text "team-a", .text "quota"⟩ onePodObject, true⟩ }
    let first := o.decideOn (.str "team-b") web
    let second := first.2.decideOn (.str "team-a") web
    let third := second.2.decideOn (.str "team-a") web
    let counted := fun counter values => third.2.site.metrics.value ⟨counter, values⟩
    ∃ d, third.1 = .ok d ∧ d.reason = .pods ∧
      Admissions [⟨.str "team-b", .allow⟩, ⟨.str "team-a", .allow⟩, ⟨.str "team-a", d⟩] third.2 ∧
      counted .cacheHits [] + counted .cacheMisses [] = 3 ∧
      counted .violations ["team-a", "pods"] = 1 := by
  intro web down cluster o first second third counted
  have h₁ : first = (.ok .allow, first.2) := rfl
  have h₂ : second = (.ok .allow, second.2) := rfl
  have governs : governingPolicy? o.policies (.str "team-a") second.2.site =
      (.ok (some onePod), second.2.site) := rfl
  have answered : (decideAdmission o.policies (.str "team-a") web second.2.site).1 =
      decisionOn onePod [web] web := decideAdmission_fst governs rfl
  have decided : decisionOn onePod [web] web = .ok (.deny .pods "maxPods" "2" "1") := by cbv
  have h₃ : third = (.ok (.deny .pods "maxPods" "2" "1"), third.2) :=
    Prod.ext (answered.trans decided) rfl
  have run := Admissions.decided (.decided (.decided (.none (o := o) rfl) h₁) h₂) h₃
  obtain ⟨looked, _, _, _, violations, _⟩ := admissions_accounted run
  exact ⟨_, congrArg Prod.fst h₃, rfl, run, looked, violations "team-a" .pods⟩

end QuotaWarden
