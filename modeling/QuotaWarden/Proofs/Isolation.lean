import QuotaWarden.Proofs.InMemoryCalls
import QuotaWarden.Proofs.ReconcileCalls
import QuotaWarden.Proofs.Triggers
import QuotaWarden.Proofs.Victims

/-! # Namespaces are isolated

Reconciling a namespace changes nothing outside of it, and nothing outside of it has a say in what
is done, on every way out: no policy, several policies, and any call that fails.

* `recorded` is an operator whose cluster writes down its calls, and `syncCalls` are those that
  reconciling makes.
* `sync_tracks` follows a reconcile on two operators side by side.
* `Isolated` is what reconciling leaves alone. `sync_isolated` is the main result. -/

namespace QuotaWarden.Operator

variable {σ σ' τ : Type} [ClusterApi σ] [ClusterApi σ'] {ns : String} {o : Operator σ τ}
  {o' : Operator σ' τ}

/-- The operator with a cluster that writes down its calls. -/
def recorded (o : Operator σ τ) : Operator (Recorded σ) τ :=
  { o with site := { o.site with cluster := ⟨o.site.cluster, []⟩ } }

/-- The calls that reconciling a namespace makes, in order. -/
def syncCalls [TimeScale τ] (options : EnforcementOptions) (ns : Json) (o : Operator σ τ) :
    List ClusterCall := (sync options ns o.recorded).2.site.cluster.calls

/-- The name of the policy that a namespace is reconciled against: the first one by name, if it can
be read. -/
def firstName? (ns : String) (o : Operator σ τ) : Option Json :=
  match o.policies.listIn (.str ns) with
  | .ok (x :: _) => x.policy?.toOption.map (·.name)
  | _ => none

/-! ### Two operators side by side -/

/-- Two operators since they began: their sites are in step, and their policies stay. -/
structure InStep (ns : String) (o : Operator σ τ) (o' : Operator σ' τ) (a : Operator σ τ)
    (b : Operator σ' τ) : Prop where
  sites : QuotaWarden.InStep ns (o.firstName? ns) o.site o'.site a.site b.site
  policies : a.policies = o.policies ∧ b.policies = o'.policies

theorem InStep.start : InStep ns o o' o o' := ⟨.start, rfl, rfl⟩

theorem onSite_tracks {α : Type} {P : α → Prop} {a : Act (Site σ τ) α} {b : Act (Site σ' τ) α}
    (h : Tracks (QuotaWarden.InStep ns (o.firstName? ns) o.site o'.site) P a b) :
    Tracks (InStep ns o o') P (onSite a) (onSite b) := by
  rintro s t ⟨sites, policies⟩
  obtain ⟨hr, he, hp⟩ := h _ _ sites
  exact ⟨⟨hr, policies⟩, he, hp⟩

theorem policiesOf_tracks
    (listed : o'.policies.listIn (.str ns) = o.policies.listIn (.str ns)) :
    Tracks (InStep ns o o')
      (fun ps => ∃ objects, o.policies.listIn (.str ns) = .ok objects ∧
        List.Forall₂ (·.policy? = .ok ·) objects ps)
      (policiesOf (.str ns)) (policiesOf (.str ns)) := by
  have read : Tracks (InStep ns o o')
      (fun ps => ∃ objects, o.policies.listIn (.str ns) = .ok objects ∧
        List.Forall₂ (·.policy? = .ok ·) objects ps)
      (onSite (QuotaWarden.policiesOf o.policies (.str ns)))
      (onSite (QuotaWarden.policiesOf o'.policies (.str ns))) := by
    refine onSite_tracks ?_
    unfold QuotaWarden.policiesOf
    rw [listed]
    refine Tracks.bind (Tracks.lift _ fun _ h => h) fun objects hobjects => ?_
    exact (readAllWithWarnings_tracks objects).weaken fun ps hps => ⟨objects, hobjects, hps⟩
  rintro s t ⟨sites, hs, ht⟩
  have es : policiesOf (.str ns) s = onSite (QuotaWarden.policiesOf o.policies (.str ns)) s := by
    rw [← hs]
    rfl
  have et : policiesOf (.str ns) t = onSite (QuotaWarden.policiesOf o'.policies (.str ns)) t := by
    rw [← ht]
    rfl
  rw [es, et]
  exact read s t ⟨sites, hs, ht⟩

theorem removeEnforced_tracks {α : Type} (x : α) :
    Tracks (InStep ns o o') (fun _ => True)
      (removeEnforced (.str ns) >>= fun _ => pure x)
      (removeEnforced (.str ns) >>= fun _ => pure x) := by
  rintro s t ⟨⟨asked, counted⟩, policies⟩
  have hkey : Key.ofJson (.str ns) = .ok (.text ns) := rfl
  obtain ⟨_, _, _, e, ⟨hc, hm⟩, _⟩ := removeEnforced_apply hkey s
  obtain ⟨_, _, _, e', ⟨hc', _⟩, _⟩ := removeEnforced_apply hkey t
  rw [Act.bind_of_ok e, Act.bind_of_ok e']
  refine ⟨⟨⟨?_, ?_⟩, policies⟩, rfl, fun _ _ => trivial⟩
  · simpa only [Act.pure_apply, hc, hc'] using asked
  · simpa only [Act.pure_apply, hm] using counted

theorem setEnforced_tracks {p : Policy} (hp : p.ns = .str ns) :
    Tracks (InStep ns o o') (fun _ => True) (setEnforced p) (setEnforced p) := by
  unfold setEnforced
  rw [hp]
  exact fun s t hst => ⟨⟨hst.sites, hst.policies⟩, rfl, fun _ _ => trivial⟩

variable [TimeScale τ] {options : EnforcementOptions}

/-- `sync` goes alike on operators that are `InStep` and whose clusters are `AnswersAlike`. -/
theorem sync_tracks (o : Operator σ τ) (o' : Operator σ' τ)
    (hread : ∀ x r p, o.policies.listIn (.str ns) = .ok (x :: r) → x.policy? = .ok p →
      p.ns = .str ns)
    (listed : o'.policies.listIn (.str ns) = o.policies.listIn (.str ns))
    (alike : AnswersAlike ns (o.firstName? ns) o.site.cluster o'.site.cluster)
    (own : ListsOwn ns (o.firstName? ns) o.site.cluster)
    (choice : ∀ pods reason q, options.choose pods reason = .ok (some q) → q ∈ pods) :
    Tracks (InStep ns o o') (fun _ => True)
      (sync options (.str ns)) (sync options (.str ns)) := by
  unfold sync
  refine Tracks.bind (policiesOf_tracks listed) fun ps hps => ?_
  cases ps with
  | nil => exact removeEnforced_tracks none
  | cons p others =>
      obtain ⟨objects, hl, hps⟩ := hps
      obtain ⟨x, r, rfl, hx⟩ : ∃ x r, objects = x :: r ∧ x.policy? = .ok p := by
        cases hps with
        | cons hx _ => exact ⟨_, _, rfl, hx⟩
      have hp := hread x r p hl hx
      have hname : o.firstName? ns = some p.name := by simp [firstName?, hl, hx, Except.toOption]
      have warned : Tracks (InStep ns o o') (fun _ => True)
          (onSite (warnOfMany (.str ns) p (others.length + 1)))
          (onSite (warnOfMany (.str ns) p (others.length + 1))) := by
        refine onSite_tracks ?_
        unfold warnOfMany
        split
        · exact Tracks.say _ _
        · exact Tracks.pure trivial
      refine Tracks.bind warned fun _ _ => Tracks.bind (setEnforced_tracks hp) fun _ _ => ?_
      exact (onSite_tracks (reconcile_tracks alike own choice hname hp)).map fun _ _ => trivial

/-! ### What is left alone -/

omit [TimeScale τ] [ClusterApi σ] in
theorem Housed.listed_ns (h : Housed o) (hns : ns ≠ "") {x : ApiObject} {r : List ApiObject}
    {p : Policy} (hl : o.policies.listIn (.str ns) = .ok (x :: r)) (hp : x.policy? = .ok p) :
    p.ns = .str ns := by
  unfold WatchCache.listIn at hl
  cases hs : o.policies.synced with
  | false => simp [hs] at hl
  | true =>
      have hin : o.policies.index.inNamespace (.text ns) = .ok (x :: r) := by
        simpa [hs, Key.ofJson, bind, Except.bind] using hl
      obtain ⟨name, hunder⟩ := (h .policies).isUnder_of_listed hin List.mem_cons_self
      obtain ⟨m, hm, hat⟩ := hunder.ns_text
      exact ns_of_policy? hm hat hns hp

/-- `sync` keeps `enforced` under every other key. -/
theorem sync_enforced (h : Housed o) (hns : ns ≠ "") (options : EnforcementOptions) {k : Key}
    (hk : (k == .text ns) = false) :
    Dictionary.get? k (sync options (.str ns) o).2.enforced = Dictionary.get? k o.enforced := by
  have hkey : Key.ofJson (.str ns) = .ok (.text ns) := rfl
  rcases sync_cases options hkey o with ⟨f, t, e⟩ | ⟨v, t, d, _, e, hget⟩ |
    ⟨x, r, p, j, result, t, hl, hp, hj, e⟩
  · rw [e]
  · rw [e]
    exact (hget k).trans (if_neg (by simp [hk]))
  · rw [h.listed_ns hns hl hp] at hj
    obtain rfl := Except.ok.inj (hkey.symm.trans hj)
    rw [e]
    exact Dictionary.get?_set_of_ne hk p o.enforced

/-- From one state to the next only a namespace was worked on, by some calls. -/
structure Isolated (ns : String) (calls : List ClusterCall) (o o' : Operator σ τ) : Prop where
  within : AllWithin ns (o.firstName? ns) calls
  cluster : o'.site.cluster = afterAll calls o.site.cluster
  pods : ∀ (views : ClusterViews σ) other name, other ≠ some ns →
    views.pod other name o'.site.cluster = views.pod other name o.site.cluster
  policies : ∀ (views : ClusterViews σ) other name,
    other ≠ ns ∨ o.firstName? ns ≠ some (.str name) →
      views.policy other name o'.site.cluster = views.policy other name o.site.cluster
  events : ∀ (views : ClusterViews σ) other, other ≠ some ns →
    views.events other o'.site.cluster = views.events other o.site.cluster
  enforced : ∀ k, (k == Key.text ns) = false →
    Dictionary.get? k o'.enforced = Dictionary.get? k o.enforced
  caches : ∀ k, o'.cache k = o.cache k
  metrics : o.site.metrics.CountsOnly ns o'.site.metrics

omit [ClusterApi σ'] in
/-- `sync` is `Isolated` to the calls that it makes. -/
theorem sync_isolates (options : EnforcementOptions) (h : Housed o) (hns : ns ≠ "")
    (own : ListsOwn ns (o.firstName? ns) o.site.cluster)
    (choice : ∀ pods reason q, options.choose pods reason = .ok (some q) → q ∈ pods) :
    Isolated ns (syncCalls options (.str ns) o) o (sync options (.str ns) o).2 := by
  have hread := fun x r p hl hp => h.listed_ns (x := x) (r := r) (p := p) hns hl hp
  have listed : o.recorded.policies.listIn (.str ns) = o.policies.listIn (.str ns) := rfl
  have noted : AnswersAlike ns (o.firstName? ns) o.site.cluster o.recorded.site.cluster :=
    Recorded.answersAlike _ _
  obtain ⟨⟨⟨⟨calls, within, hc, hrec⟩, counted⟩, _⟩, _, _⟩ :=
    sync_tracks o o.recorded hread listed noted own choice _ _ InStep.start
  have made : syncCalls options (.str ns) o = calls := by
    unfold syncCalls
    rw [hrec, Recorded.afterAll_eq]
    rfl
  rw [made]
  refine ⟨within, hc, ?_, ?_, ?_, ?_, ?_, counted⟩
  · intro views other name ho
    rw [hc]
    exact views.pod_elsewhere within ho name _
  · intro views other name ho
    rw [hc]
    exact views.policy_elsewhere within ho _
  · intro views other ho
    rw [hc]
    exact views.events_elsewhere within ho _
  · exact fun k hk => sync_enforced h hns options hk
  · exact sync_cache options (.text ns) o

/-- **Namespaces are isolated.** Reconciling a namespace, however it ends, makes only calls within
the namespace and its first policy by name. It leaves the pods and the policies elsewhere, the
events about other namespaces, what is remembered for them, all caches, and what is counted for them
as they were. Conversely another operator with the same policies in the namespace, on a cluster that
answers alike within it, makes the same calls in the same order, with the same outcome. -/
theorem sync_isolated (options : EnforcementOptions) {cluster : σ} {past : List Key}
    (hpast : Turns (start cluster) past o) (hns : ns ≠ "")
    (own : ListsOwn ns (o.firstName? ns) o.site.cluster)
    (choice : ∀ pods reason q, options.choose pods reason = .ok (some q) → q ∈ pods) :
    Isolated ns (syncCalls options (.str ns) o) o (sync options (.str ns) o).2 ∧
      ∀ {σ' : Type} [ClusterApi σ'] (o' : Operator σ' τ),
        o'.policies.listIn (.str ns) = o.policies.listIn (.str ns) →
        AnswersAlike ns (o.firstName? ns) o.site.cluster o'.site.cluster →
        syncCalls options (.str ns) o' = syncCalls options (.str ns) o ∧
          (sync options (.str ns) o').1 = (sync options (.str ns) o).1 := by
  have housed := hpast.housed (start_housed cluster)
  refine ⟨sync_isolates options housed hns own choice, fun o' listed alike => ?_⟩
  have hread := fun x r p hl hp => housed.listed_ns (x := x) (r := r) (p := p) hns hl hp
  have noted : AnswersAlike ns (o.firstName? ns) o.site.cluster o.recorded.site.cluster :=
    Recorded.answersAlike _ _
  have both : AnswersAlike ns (o.firstName? ns) o.recorded.site.cluster o'.recorded.site.cluster :=
    (noted.symm.trans alike).trans (Recorded.answersAlike _ _)
  obtain ⟨⟨⟨⟨calls, _, hc, hc'⟩, _⟩, _⟩, _, _⟩ := sync_tracks o.recorded o'.recorded hread listed
    both (own.of_alike noted) choice _ _ InStep.start
  obtain ⟨_, same, _⟩ := sync_tracks o o' hread listed alike own choice _ _ InStep.start
  refine ⟨?_, same⟩
  unfold syncCalls
  rw [hc, hc', Recorded.afterAll_eq, Recorded.afterAll_eq]
  rfl

/-- A cluster with pods and a policy in two namespaces, where all deletes are refused. -/
def guarded : InMemory :=
  let pod (ns name : String) (created : Int) : ObjectKey × Pod :=
    (⟨.text ns, .text name⟩, ⟨some ⟨some name, some ns, none, some created⟩, some [], none⟩)
  { InMemory.empty with
    pods := [pod "team-a" "web" 30, pod "team-a" "batch" 10, pod "team-b" "web" 20]
    policies := [(⟨.text "team-a", .text "quota"⟩, .obj []),
      (⟨.text "team-b", .text "quota"⟩, .obj [])]
    script := [(.deletePod, [⟨some (.refused ⟨.int 403, .str "Forbidden"⟩), true⟩])] }

/-- The same cluster without the second namespace. -/
def guardedAlone : InMemory :=
  { guarded with pods := guarded.pods.take 2, policies := guarded.policies.take 1 }

/-- An operator that has listed a policy of one pod for each of these namespaces. -/
def limiting (namespaces : List String) (cluster : InMemory) : Operator InMemory Float :=
  let quota (ns : String) : ApiObject := .untyped (.obj
    [("metadata", .obj [("name", .str "quota"), ("namespace", .str ns)]),
      ("spec", .obj [("maxPods", .int 1)])])
  ((host .policies).relist (.ok (.list (namespaces.map quota) (some "1"))) (start cluster)).2

theorem guarded_agree : InMemory.Agree "team-a" guarded guardedAlone := by
  refine ⟨rfl, fun name => ?_, rfl, rfl⟩
  simp [guardedAlone, guarded, Dictionary.get?, BEq.beq, Key.plain]

/-- The deletes in one namespace are refused. The other namespace stays as it was, and without it
the same calls are made. -/
theorem sync_isolated_refused :
    let o := limiting ["team-a", "team-b"] guarded
    let o' := limiting ["team-a"] guardedAlone
    let ns : Json := .str "team-a"
    Turns (start guarded) [] o ∧ o.firstName? "team-a" = some (.str "quota") ∧
      Isolated "team-a" (syncCalls .standard ns o) o (sync .standard ns o).2 ∧
      InMemory.views.pod (some "team-b") (some "web") (sync .standard ns o).2.site.cluster =
        guarded.pods[2]?.map (·.2) ∧
      syncCalls .standard ns o' = syncCalls .standard ns o ∧
      (sync .standard ns o').1 = (sync .standard ns o).1 := by
  intro o o' ns
  have past : Turns (start guarded) [] o := (Turn.relist _ .policies _).turns
  have own : ListsOwn "team-a" (o.firstName? "team-a") o.site.cluster :=
    InMemory.listsOwn (by decide +kernel)
  obtain ⟨isolated, alike⟩ := sync_isolated .standard past (by decide) own
    fun _ _ _ => selectVictim_mem
  have listed : o'.policies.listIn ns = o.policies.listIn ns := rfl
  obtain ⟨calls, outcome⟩ := alike o' listed guarded_agree.answersAlike
  have kept := isolated.pods InMemory.views (some "team-b") (some "web") (by decide)
  exact ⟨past, rfl, isolated, kept, calls, outcome⟩

end QuotaWarden.Operator
