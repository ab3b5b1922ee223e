import QuotaWarden.Admission
import QuotaWarden.Proofs.EvictionSafety
import QuotaWarden.Proofs.WrittenTexts

/-! # Admission and enforcement agree

A pod that asks to be admitted is counted as if it were there, so the decision on it should be the
verdict on the namespace with the pod in it. `Usage.withPod` adds the pod to a usage, which
`Usage.decide` judges; `Usage.ofPods` counts the list with the pod by `Usage.countPod`, and
`Usage.evaluate` judges that.

* `decisionOn` is the decision on a pod next to others; an admission with these pods gives it
  (`decideAdmission_fst`).
* Both ways reach one usage or fail alike (`Usage.projected_eq`), and on one usage they come out
  `Alike` (`Usage.decide_alike`). `Usage.FirstExceeded` is what the reason of a verdict means.
* An enforcement makes a delete call exactly if its first listing shows a violation
  (`enforce_deletes_iff`): no later call is taken back, by `Records`.

`admission_agrees` puts them together. -/

namespace QuotaWarden

variable {σ τ : Type} {p : Policy} {pods : List Pod} {candidate : Pod}

/-! ### The reason of a verdict -/

/-- Whether a usage exceeds the limit that a reason names; the limit must be set. -/
def Usage.Exceeds (u : Usage) (p : Policy) : Reason → Prop
  | .none => False
  | .pods => 0 < p.maxPods ∧ p.maxPods < u.pods
  | .cpu => Decimal.lt 0 p.maxCpu = .ok true ∧ Decimal.lt p.maxCpu u.cpu = .ok true
  | .memory => Decimal.lt 0 p.maxMemory = .ok true ∧ Decimal.lt p.maxMemory u.memory = .ok true

/-- The reason names a limit that is exceeded, and none of the limits before it is. -/
def Usage.FirstExceeded (u : Usage) (p : Policy) (r : Reason) : Prop :=
  u.Exceeds p r ∧ ∃ earlier later, Reason.all = earlier ++ r :: later ∧
    ∀ e ∈ earlier, ¬ u.Exceeds p e

theorem countExceeds_iff {count limit : Int} :
    countExceeds count limit = true ↔ 0 < limit ∧ limit < count := by
  simp [countExceeds]

theorem exceeds_iff {amount limit : Decimal} :
    exceeds amount limit = .ok true ↔
      Decimal.lt 0 limit = .ok true ∧ Decimal.lt limit amount = .ok true := by
  unfold exceeds
  cases Decimal.lt 0 limit with
  | error e => simp [liftSignal, bind, Except.bind]
  | ok set =>
      cases set with
      | false => simp [liftSignal, bind, Except.bind, pure, Except.pure]
      | true => cases Decimal.lt limit amount <;> simp [liftSignal, bind, Except.bind]

theorem Judged.firstExceeded {u : Usage} {v : Verdict} (h : Judged u p v)
    (hv : v.violated = true) : u.FirstExceeded p v.reason := by
  have count {n m : Int} (hb : countExceeds n m = false) : ¬ (0 < m ∧ m < n) :=
    fun hover => absurd (countExceeds_iff.mpr hover) (by simp [hb])
  have amount {x limit : Decimal} (hb : exceeds x limit = .ok false) :
      ¬ (Decimal.lt 0 limit = .ok true ∧ Decimal.lt limit x = .ok true) :=
    fun hover => absurd (exceeds_iff.mpr hover) (by simp [hb])
  cases h with
  | pods above reason =>
      rw [reason]
      refine ⟨countExceeds_iff.mp above, [.none], [.cpu, .memory], rfl, ?_⟩
      simp [Usage.Exceeds]
  | cpu within above reason =>
      rw [reason]
      refine ⟨exceeds_iff.mp above, [.none, .pods], [.memory], rfl, ?_⟩
      simp only [List.forall_mem_cons]
      exact ⟨id, count within, by simp⟩
  | memory within under above reason =>
      rw [reason]
      refine ⟨exceeds_iff.mp above, [.none, .pods, .cpu], [], rfl, ?_⟩
      simp only [List.forall_mem_cons]
      exact ⟨id, count within, amount under, by simp⟩
  | compliant _ _ _ reason => exact absurd reason (Verdict.violated_iff.mp hv)

/-! ### Decisions and verdicts -/

/-- A decision and a verdict on a usage come out alike: they fail alike, or they name one reason,
which is the right one. -/
def Alike (u : Usage) (p : Policy) : Except Fault Decision → Except Fault Verdict → Prop
  | .ok d, .ok v => d.reason = v.reason ∧ d.allowed = !v.violated ∧ v.usage = u ∧ Judged u p v
  | .error f, .error g => f = g
  | _, _ => False

theorem Alike.bind {u : Usage} {α : Type} (x : Except Fault α) {f : α → Except Fault Decision}
    {g : α → Except Fault Verdict} (h : ∀ a, x = .ok a → Alike u p (f a) (g a)) :
    Alike u p (x >>= f) (x >>= g) := by
  cases x with
  | error e => exact rfl
  | ok a => exact h a rfl

/-- `Usage.decide` and `Usage.evaluate` are `Alike` on one usage. -/
theorem Usage.decide_alike (u : Usage) (p : Policy) : Alike u p (u.decide p) (u.evaluate p) := by
  have texts : ∀ {r : Reason} {what front : String} (s t : Except Fault String), r ≠ .none →
      (∀ v : Verdict, v.reason = r → Judged u p v) →
      Alike u p (do return .deny r what (← s) (← t))
        (do return ⟨u, r, front ++ (← s) ++ ">max:" ++ (← t)⟩) := by
    intro r what front s t hr hj
    refine Alike.bind s fun a _ => Alike.bind t fun b _ => ?_
    exact ⟨rfl, by simp [Decision.deny, Verdict.violated, hr], rfl, hj _ rfl⟩
  unfold Usage.decide Usage.evaluate
  cases within : countExceeds u.pods p.maxPods with
  | true => exact texts _ _ (by decide) fun v hv => .pods within hv
  | false =>
      refine Alike.bind _ fun cpu hcpu => ?_
      cases cpu with
      | true => exact texts _ _ (by decide) fun v hv => .cpu within hcpu hv
      | false =>
          refine Alike.bind _ fun memory hmemory => ?_
          cases memory with
          | true => exact texts _ _ (by decide) fun v hv => .memory within hcpu hmemory hv
          | false => exact ⟨rfl, rfl, rfl, .compliant within hcpu hmemory rfl⟩

/-- The usage of some pods with a pod that asks to be admitted. -/
def Usage.projected (pods : List Pod) (candidate : Pod) : Except Fault Usage := do
  (← Usage.ofPods pods).withPod candidate

theorem Usage.projected_eq (h : candidate.isTerminal = false) :
    Usage.projected pods candidate = Usage.ofPods (pods ++ [candidate]) := by
  have hlive : livePods [candidate] = [candidate] := by simp [livePods, h]
  rw [Usage.ofPods_append, hlive]
  simp only [List.foldlM_cons, List.foldlM_nil, bind_pure]
  rfl

/-- The decision on a pod that asks to be admitted next to some pods. -/
def decisionOn (p : Policy) (pods : List Pod) (candidate : Pod) : Except Fault Decision := do
  (← Usage.projected pods candidate).decide p

/-- `decisionOn` and `verdictOn` with the candidate fail alike, or agree in reason and outcome. -/
theorem decisionOn_cases (p : Policy) (pods : List Pod) (h : candidate.isTerminal = false) :
    (∃ f, decisionOn p pods candidate = .error f ∧ verdictOn p (pods ++ [candidate]) = .error f) ∨
      ∃ d v, decisionOn p pods candidate = .ok d ∧ verdictOn p (pods ++ [candidate]) = .ok v ∧
        Usage.ofPods (pods ++ [candidate]) = .ok v.usage ∧ d.reason = v.reason ∧
        d.allowed = !v.violated ∧ Judged v.usage p v := by
  unfold decisionOn verdictOn
  rw [Usage.projected_eq h]
  cases hu : Usage.ofPods (pods ++ [candidate]) with
  | error f => exact Or.inl ⟨f, rfl, rfl⟩
  | ok u =>
      have alike := u.decide_alike p
      change (∃ f, u.decide p = .error f ∧ u.evaluate p = .error f) ∨
        ∃ d v, u.decide p = .ok d ∧ u.evaluate p = .ok v ∧ _
      cases hd : u.decide p with
      | error f =>
          cases hv : u.evaluate p with
          | error g =>
              rw [hd, hv] at alike
              exact Or.inl ⟨f, rfl, congrArg Except.error (Eq.symm alike)⟩
          | ok v => rw [hd, hv] at alike; exact absurd alike id
      | ok d =>
          cases hv : u.evaluate p with
          | error g => rw [hd, hv] at alike; exact absurd alike id
          | ok v =>
              rw [hd, hv] at alike
              obtain ⟨hreason, hallowed, rfl, hjudged⟩ := alike
              exact Or.inr ⟨d, v, rfl, rfl, rfl, hreason, hallowed, hjudged⟩

/-! ### Admissions -/

section

variable [ClusterApi σ] {ns : Json} {c : σ}

theorem decideUnder_fst {s : Site σ τ} (hl : ClusterApi.listPods ns s.cluster = (.ok pods, c)) :
    (decideUnder p ns candidate s).1 = decisionOn p pods candidate := by
  unfold decideUnder decisionOn
  rw [Act.bind_apply, Act.attempt_apply, call_apply, hl]
  dsimp only
  rw [Act.bind_apply, Act.lift_apply, ← Usage.projected]
  cases Usage.projected pods candidate with
  | error f => rfl
  | ok u =>
      dsimp only
      rw [Act.bind_apply, Act.lift_apply]
      change _ = u.decide p
      cases u.decide p with
      | error f => rfl
      | ok d => cases hd : d.allowed <;> simp [hd, Site.tally, Site.say, Act.bind_apply]

theorem decideAdmission_fst {policies : WatchCache} {s s' : Site σ τ}
    (hg : governingPolicy? policies ns s = (.ok (some p), s'))
    (hl : ClusterApi.listPods ns s'.cluster = (.ok pods, c)) :
    (decideAdmission policies ns candidate s).1 = decisionOn p pods candidate := by
  unfold decideAdmission
  rw [Act.bind_of_ok hg]
  exact decideUnder_fst (s := { s' with metrics := _ }) hl

end

/-! ### What an enforcement deletes -/

/-- An action on a cluster that records its calls only adds to the record. -/
def Records {α : Type} (a : Act (Site Oracle τ) α) : Prop :=
  ∀ s, s.cluster.calls <+: (a s).2.cluster.calls

namespace Records

variable {α β : Type}

theorem of_eq {a : Act (Site Oracle τ) α} (h : ∀ s, (a s).2.cluster = s.cluster) : Records a :=
  fun s => ⟨[], by rw [List.append_nil, h s]⟩

theorem bind {a : Act (Site Oracle τ) α} {f : α → Act (Site Oracle τ) β} (ha : Records a)
    (hf : ∀ x, Records (f x)) : Records (a >>= f) := by
  intro s
  have first := ha s
  rw [Act.bind_apply]
  generalize a s = result at first ⊢
  obtain ⟨r, t⟩ := result
  cases r with
  | ok x => exact first.trans (hf x t)
  | error e => exact first

theorem attempt {a : Act (Site Oracle τ) α} (ha : Records a) : Records (Act.attempt a) := ha

theorem listPods (ns : Json) : Records (τ := τ) (Site.call (ClusterApi.listPods ns)) :=
  fun _ => List.prefix_append _ _

theorem deletePod (victim : Pod) : Records (τ := τ) (QuotaWarden.deletePod victim) := by
  unfold QuotaWarden.deletePod
  cases victim.metadata with
  | none => exact of_eq fun _ => rfl
  | some m =>
      have called : Records (τ := τ) 
          (Site.call (ClusterApi.deletePod m.ns m.name deleteGraceSeconds)) :=
        fun _ => List.prefix_append _ _
      refine bind (attempt called) fun answer => ?_
      cases answer with
      | ok _ => exact of_eq fun _ => rfl
      | error f =>
          cases f
          case refused r => dsimp only; split <;> exact of_eq fun _ => rfl
          all_goals exact of_eq fun _ => rfl

theorem evaluateNamespace (ns : Json) (p : Policy) :
    Records (τ := τ) (QuotaWarden.evaluateNamespace ns p) := by
  refine bind (bind (attempt (listPods ns)) fun answer => ?_) fun pods => ?_
  · cases answer with
    | ok pods => exact of_eq fun _ => rfl
    | error f => cases f <;> exact of_eq fun _ => rfl
  · exact bind (of_eq fun _ => rfl) fun _ => of_eq fun _ => rfl

theorem concludeEnforcement (o : EnforcementOptions) (ns : Json) (p : Policy)
    (last : Option Refusal) : Records (τ := τ) (QuotaWarden.concludeEnforcement o ns p last) := by
  unfold QuotaWarden.concludeEnforcement
  refine bind (evaluateNamespace ns p) fun r => ?_
  dsimp only
  split
  · cases last <;> exact of_eq fun _ => rfl
  · exact of_eq fun _ => rfl

variable [TimeScale τ]

theorem evict (o : EnforcementOptions) (ns : Json) (p : Policy) (v : Verdict) (round : Nat)
    (victim : Pod) : Records (τ := τ) (QuotaWarden.evict o ns p v round victim) := by
  unfold QuotaWarden.evict
  refine bind (attempt (deletePod victim)) fun outcome => ?_
  cases outcome with
  | error f => cases f <;> exact of_eq fun _ => rfl
  | ok _ => cases h : o.counted <;> exact of_eq fun _ => rfl

/-- `enforceRounds` only adds to the record, by induction on the deletes that are left. -/
theorem enforceRounds (o : EnforcementOptions) (ns : Json) (p : Policy) (left round : Nat)
    (last : Option Refusal) :
    Records (τ := τ) (QuotaWarden.enforceRounds o ns p left round last) := by
  induction left generalizing round last with
  | zero => exact concludeEnforcement o ns p last
  | succ left ih =>
      unfold QuotaWarden.enforceRounds
      refine bind (evaluateNamespace ns p) fun r => ?_
      dsimp only
      split
      · exact of_eq fun _ => rfl
      · refine bind (of_eq fun _ => rfl) fun victim => ?_
        cases victim with
        | none => exact of_eq fun _ => rfl
        | some q =>
            dsimp only
            split
            · exact of_eq fun _ => rfl
            · refine bind (evict o ns p _ round q) fun outcome => ?_
              cases outcome with
              | deleted => exact ih _ _
              | refused r => exact ih _ _

end Records

/-- The number of delete calls that a cluster has recorded. -/
def Oracle.deleteCalls (c : Oracle) : Nat := c.calls.countP Exchange.isDelete

/-- `enforce` makes a delete call exactly if the verdict on its first listing is a violation. -/
theorem enforce_deletes_iff [TimeScale τ] {o : EnforcementOptions} {ns : Json}
    {s : Site Oracle τ} {v : Verdict} (hc : o.choose = selectVictim) (hcap : 1 ≤ o.cap)
    (hdry : o.dryRun = false) (hl : s.cluster.lists 0 = .ok pods) (hv : verdictOn p pods = .ok v)
    (hlive : livePods pods ≠ []) (hm : ∀ q ∈ livePods pods, q.metadata ≠ none) :
    (enforce o ns p s).2.cluster.deleteCalls = s.cluster.deleteCalls ↔ v.violated = false := by
  obtain ⟨left, hleft⟩ : ∃ left, o.cap.toNat = left + 1 := ⟨o.cap.toNat - 1, by omega⟩
  have hlist := Oracle.listPods_eq hl ns
  unfold enforce
  rw [hleft]
  cases hviolated : v.violated with
  | false =>
      rw [enforceRounds_compliant o (left + 1) 1 none hlist hv hviolated]
      simp [Oracle.deleteCalls, Oracle.afterList, Exchange.isDelete]
  | true =>
      obtain ⟨q, hq, hselect, _⟩ := selectVictim_ok hm hlive (Verdict.violated_iff.mp hviolated)
      obtain ⟨m, hmetadata⟩ := Option.ne_none_iff_exists'.mp (hm q hq)
      have hanswer : DeleteAnswer q (s.cluster.afterList ns)
          ((s.cluster.afterList ns).afterDelete m.ns m.name) (s.cluster.deletes 0) :=
        ⟨m, hmetadata, rfl⟩
      obtain ⟨t, e, hcluster, _⟩ := enforceRounds_evicted o left 1 none hlist hv hviolated
        (by rw [hc, hselect]) hdry hanswer
      rw [e]
      have later := Records.enforceRounds o ns p left (1 + 1) (refusalLeft (s.cluster.deletes 0)) t
      have deleted : t.cluster.deleteCalls = s.cluster.deleteCalls + 1 := by
        simp [hcluster, Oracle.deleteCalls, Oracle.afterDelete, Oracle.afterList,
          Exchange.isDelete]
      have more : t.cluster.deleteCalls ≤ _ := later.sublist.countP_le
      simp only [reduceCtorEq, iff_false]
      unfold Oracle.deleteCalls at deleted more ⊢
      omega

/-! ### Agreement -/

/-- **Admission and enforcement agree.** A pod that has not ended is refused for a reason exactly if
the namespace with the pod in it violates the policy for that reason, the first limit that is
exceeded; both fail alike. So an admission that could list the pods lets the pod in exactly if an
enforcement that lists them with the pod deletes nothing. -/
theorem admission_agrees [ClusterApi σ] [TimeScale τ] (h : candidate.isTerminal = false) :
    let decision := decisionOn p pods candidate
    let verdict := verdictOn p (pods ++ [candidate])
    (∀ r, (∃ d, decision = .ok d ∧ d.allowed = false ∧ d.reason = r) ↔
        ∃ v, verdict = .ok v ∧ v.violated = true ∧ v.reason = r) ∧
      (∀ v, verdict = .ok v → Usage.ofPods (pods ++ [candidate]) = .ok v.usage ∧
        (v.violated = true → v.usage.FirstExceeded p v.reason)) ∧
      ((∃ d, decision = .ok d ∧ d.allowed = true) ↔ ∃ v, verdict = .ok v ∧ v.violated = false) ∧
      (∀ f, decision = .error f ↔ verdict = .error f) ∧
      ∀ (policies : WatchCache) (ns : Json) (s s' : Site σ τ) (c : σ),
        governingPolicy? policies ns s = (.ok (some p), s') →
        ClusterApi.listPods ns s'.cluster = (.ok pods, c) →
        (decideAdmission policies ns candidate s).1 = decision ∧
        ∀ d, decision = .ok d → ∀ (o : EnforcementOptions) (e : Site Oracle τ),
          o.choose = selectVictim → 1 ≤ o.cap → o.dryRun = false →
          (∀ q ∈ pods ++ [candidate], q.metadata ≠ none) →
          e.cluster.lists 0 = .ok (pods ++ [candidate]) →
          (d.allowed = true ↔
            (enforce o ns p e).2.cluster.deleteCalls = e.cluster.deleteCalls) := by
  intro decision verdict
  have admitted : ∀ (policies : WatchCache) (ns : Json) (s s' : Site σ τ) (c : σ),
      governingPolicy? policies ns s = (.ok (some p), s') →
      ClusterApi.listPods ns s'.cluster = (.ok pods, c) →
      (decideAdmission policies ns candidate s).1 = decision :=
    fun _ _ _ _ _ hg hl => decideAdmission_fst hg hl
  rcases decisionOn_cases p pods h with ⟨f, hd, hv⟩ |
    ⟨d, v, hd, hv, husage, hreason, hallowed, hjudged⟩
  · replace hd : decision = .error f := hd
    replace hv : verdict = .error f := hv
    refine ⟨by simp [hd, hv], by simp [hv], by simp [hd, hv], by simp [hd, hv], ?_⟩
    intro policies ns s s' c hg hl
    exact ⟨admitted policies ns s s' c hg hl, by simp [hd]⟩
  · replace hd : decision = .ok d := hd
    replace hv : verdict = .ok v := hv
    refine ⟨by simp [hd, hv, hreason, hallowed], ?_, by simp [hd, hv, hallowed],
      by simp [hd, hv], ?_⟩
    · intro w hw
      obtain rfl : v = w := Except.ok.inj (hv.symm.trans hw)
      exact ⟨husage, hjudged.firstExceeded⟩
    · intro policies ns s s' c hg hl
      refine ⟨admitted policies ns s s' c hg hl, ?_⟩
      intro d' hd' o e hc hcap hdry hm hlist
      obtain rfl : d = d' := Except.ok.inj (hd.symm.trans hd')
      have live : candidate ∈ livePods (pods ++ [candidate]) := mem_livePods.mpr ⟨by simp, h⟩
      rw [enforce_deletes_iff hc hcap hdry hlist hv (List.ne_nil_of_mem live)
        fun q hq => hm q (mem_livePods.mp hq).1, hallowed]
      simp

/-- Five pods, one core and 64Mi. -/
def smallQuota : Policy := ⟨.str "quota", .str "team-a", 5, 1, 67108864⟩

/-- `smallQuota` as an object of the API. -/
def smallQuotaObject : ApiObject :=
  .untyped (.obj [("metadata", .obj [("name", .str "quota"), ("namespace", .str "team-a")]),
    ("spec", .obj [("maxPods", .int 5), ("maxCPU", .int 1), ("maxMemory", .int 67108864)])])

/-- A pod with one container. -/
def requesting (name cpu memory : String) : Pod :=
  ⟨some ⟨some name, some "team-a", none, none⟩,
    some [⟨"main", some [("cpu", cpu), ("memory", memory)]⟩], none⟩

/-- A second pod under `smallQuota`, where the cores suffice and the memory does not: it is refused
because of the memory, and an enforcement that finds both pods tries to delete one. -/
theorem admission_agrees_second_pod :
    let web := requesting "web" "600m" "60Mi"
    let worker := requesting "worker" "300m" "8Mi"
    let policies : WatchCache :=
      ⟨"policies", Index.empty.store ⟨.text "team-a", .text "quota"⟩ smallQuotaObject, true⟩
    let s : Site Oracle Float := ⟨⟨fun _ => .ok [web], fun _ => none, []⟩, 0, [], .zero⟩
    let e : Site Oracle Float := ⟨⟨fun _ => .ok [web, worker], fun _ => none, []⟩, 0, [], .zero⟩
    worker.isTerminal = false ∧
      governingPolicy? policies (.str "team-a") s = (.ok (some smallQuota), s) ∧
      ∃ d, (decideAdmission policies (.str "team-a") worker s).1 = .ok d ∧ d.allowed = false ∧
        d.reason = .memory ∧
        (enforce .standard (.str "team-a") smallQuota e).2.cluster.deleteCalls ≠
          e.cluster.deleteCalls := by
  intro web worker policies s e
  have live : worker.isTerminal = false := by decide
  have governs : governingPolicy? policies (.str "team-a") s = (.ok (some smallQuota), s) := rfl
  obtain ⟨denied, _, _, _, runs⟩ := @admission_agrees Oracle Float smallQuota [web] worker _ _ live
  have judged : (verdictOn smallQuota [web, worker]).toOption.map (·.reason) = some .memory := by
    decide +kernel
  obtain ⟨v, hv, because⟩ := Option.map_eq_some_iff.mp judged
  have verdict : verdictOn smallQuota [web, worker] = .ok v := eq_ok_of_toOption hv
  have violated : v.violated = true := Verdict.violated_iff.mpr (because ▸ by decide)
  obtain ⟨d, hd, hallowed, hreason⟩ := (denied .memory).mpr ⟨v, verdict, violated, because⟩
  obtain ⟨hadmission, hruns⟩ := runs policies (.str "team-a") s s _ governs rfl
  refine ⟨live, governs, d, hadmission.trans hd, hallowed, hreason, ?_⟩
  have agrees := hruns d hd .standard e rfl (by decide) rfl (by decide) rfl
  exact mt agrees.mpr (by simp [hallowed])

end QuotaWarden
