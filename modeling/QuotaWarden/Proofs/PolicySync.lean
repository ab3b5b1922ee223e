import QuotaWarden.Cluster.InMemory
import QuotaWarden.Proofs.OperatorChanges
import QuotaWarden.Proofs.PolicyReading

/-! # No policy change is missed

The operator remembers the policy that each namespace was last reconciled against. Between its steps
every namespace is still pending in the queue, or what is remembered for it `Agrees` with the cache
of policies: it is the first policy by name, or nothing where there is no policy.

* `Move` is a step of the operator: a list response, an event of a watch, a round of synthetic
  changes, a pass of the delivering loop, a worker that takes or reconciles a namespace, or anything
  that happens elsewhere. `Reaches` are the states that moves lead to.
* `Settled` is the invariant, kept by each move (`Settled.move`).
* `reaches_agrees` needs that events of the watch come after the first list response, as they do in
  `Watcher.rounds`. Without that a change can be missed: `reaches_unlisted`. -/

namespace QuotaWarden.Operator

open TimeScale

variable {σ τ : Type} {o o' : Operator σ τ}

/-! ### Agreement -/

/-- What is remembered for a namespace is its first policy by name, or nothing if it has none. -/
def Agrees (ns : String) (o : Operator σ τ) : Prop :=
  (∃ name object p, o.policies.index.IsFirst ns name object ∧ object.policy? = .ok p ∧
      Dictionary.get? (.text ns) o.enforced = some p) ∨
    (∀ name, o.policies.index.get? ⟨.text ns, .text name⟩ = none) ∧
      Dictionary.get? (.text ns) o.enforced = none

/-- The policies and what is remembered stay, and no pending namespace is lost. -/
structure Keeps (o o' : Operator σ τ) : Prop where
  policies : o'.policies = o.policies
  enforced : o'.enforced = o.enforced
  shuttingDown : o'.queue.shuttingDown = o.queue.shuttingDown
  pending : ∀ k, o.queue.Pending k → o'.queue.Pending k

theorem Keeps.refl (o : Operator σ τ) : Keeps o o := ⟨rfl, rfl, rfl, fun _ h => h⟩

theorem Keeps.trans {o₁ o₂ o₃ : Operator σ τ} (h : Keeps o₁ o₂) (h' : Keeps o₂ o₃) :
    Keeps o₁ o₃ :=
  ⟨h'.policies.trans h.policies, h'.enforced.trans h.enforced,
    h'.shuttingDown.trans h.shuttingDown, fun k hk => h'.pending k (h.pending k hk)⟩

theorem Keeps.of_eq (hp : o'.policies = o.policies) (he : o'.enforced = o.enforced)
    (hq : o'.queue = o.queue) : Keeps o o' :=
  ⟨hp, he, by rw [hq], fun k hk => by rwa [hq]⟩

theorem Keeps.site (o : Operator σ τ) (t : Site σ τ) : Keeps o { o with site := t } :=
  Keeps.of_eq rfl rfl rfl

theorem Agrees.congr {ns : String} (h : Agrees ns o)
    (hp : ∀ name, o'.policies.index.get? ⟨.text ns, .text name⟩ =
      o.policies.index.get? ⟨.text ns, .text name⟩)
    (he : Dictionary.get? (.text ns) o'.enforced = Dictionary.get? (.text ns) o.enforced) :
    Agrees ns o' := by
  unfold Agrees Index.IsFirst at h ⊢
  simp only [hp, he]
  exact h

/-! ### Changes that are told -/

theorem enqueue_keeps (k : Key) (o : Operator σ τ) : Keeps o (o.enqueue k) :=
  ⟨rfl, rfl, WorkQueue.add_shuttingDown _ _, fun _ h => h.add k⟩

theorem Notes.keeps (h : Notes o o') : Keeps o o' := by
  obtain ⟨ks, t, rfl⟩ := h
  exact ⟨rfl, rfl, WorkQueue.foldl_add_shuttingDown ks o.queue, fun _ h => h.foldl_add ks⟩

theorem deliverAll_keeps (k : WatchedKind) (cs : List Change) (o : Operator σ τ) :
    Keeps o ((host k).deliverAll cs o) := (deliverAll_notes k cs o).keeps

theorem deliverAll_pending (h : o.queue.shuttingDown = false) {cs : List Change} {c : Change}
    (hc : c ∈ cs) {ns name : String} (hat : c.object.IsAt ns name) (hns : ns ≠ "") :
    ((host .policies).deliverAll cs o).queue.Pending (.text ns) := by
  obtain ⟨version, hv⟩ := hat
  exact Or.inl (Or.inl (deliverAll_marked h hc hv rfl hns))

/-! ### The invariant -/

/-- Objects from `P` have names, and two of one key and version read as the same policy. -/
structure Versioned (P : ApiObject → Prop) : Prop where
  identified : WatchCache.Identified P
  alike : ∀ old new ns name, P old → P new → old.IsAt ns name → new.IsAt ns name →
    WatchCache.versionsDiffer old new = false → old.policy? = new.policy?

/-- What holds between the moves of an operator. -/
structure Settled (P : ApiObject → Prop) (o : Operator σ τ) : Prop where
  serving : o.queue.shuttingDown = false
  textual : o.policies.index.Textual P
  unlisted : o.policies.synced = false → o.policies.index = .empty
  covered : ∀ ns, o.queue.Pending (.text ns) ∨ Agrees ns o

variable {P : ApiObject → Prop}

theorem start_settled [TimeScale τ] (cluster : σ) : Settled P (start cluster : Operator σ τ) :=
  ⟨rfl, Index.empty_textual, fun _ => rfl, fun _ => Or.inr (Or.inr ⟨fun _ => rfl, rfl⟩)⟩

theorem Settled.keeps (h : Settled P o) (hk : Keeps o o') : Settled P o' := by
  refine ⟨hk.shuttingDown.trans h.serving, ?_, ?_, ?_⟩
  · rw [hk.policies]
    exact h.textual
  · rw [hk.policies]
    exact h.unlisted
  · intro ns
    rcases h.covered ns with hp | ha
    · exact Or.inl (hk.pending _ hp)
    · exact Or.inr (ha.congr (fun _ => by rw [hk.policies]) (by rw [hk.enforced]))

/-! ### Changes of the cache -/

theorem setCache_keeps {k : WatchedKind} (hk : k ≠ .policies) (c : WatchCache)
    (o : Operator σ τ) : Keeps o (setCache k c o) := by
  cases k with
  | policies => exact absurd rfl hk
  | namespaces => exact Keeps.of_eq rfl rfl rfl
  | pods => exact Keeps.of_eq rfl rfl rfl

theorem markSynced_keeps {k : WatchedKind} (hk : k ≠ .policies) (n : Nat) (o : Operator σ τ) :
    Keeps o ((host k).markSynced n o) := by
  unfold CacheHost.markSynced
  split
  · exact Keeps.refl o
  · exact (setCache_keeps hk _ o).trans (Keeps.of_eq rfl rfl rfl)

theorem relist_keeps {k : WatchedKind} (hk : k ≠ .policies) (response : Except Fault ApiObject)
    (o : Operator σ τ) : Keeps o ((host k).relist response o).2 := by
  unfold CacheHost.relist
  split
  · exact Keeps.refl o
  · split
    · exact Keeps.refl o
    · exact ((setCache_keeps hk _ o).trans (deliverAll_keeps k _ _)).trans (markSynced_keeps hk _ _)

theorem apply_keeps {k : WatchedKind} (hk : k ≠ .policies) (kind : ChangeKind) (x : ApiObject)
    (o : Operator σ τ) : Keeps o ((host k).apply kind x o).2 := by
  unfold CacheHost.apply
  split
  · exact Keeps.refl o
  · next c change _ => exact (setCache_keeps hk _ o).trans (deliverAll_keeps k [change] _)

theorem markSynced_policies (n : Nat) (o : Operator σ τ) :
    ((host .policies).markSynced n o).policies = { o.policies with synced := true } ∧
      ((host .policies).markSynced n o).enforced = o.enforced ∧
      ((host .policies).markSynced n o).queue = o.queue := by
  unfold CacheHost.markSynced
  split
  · next h =>
      refine ⟨?_, rfl, rfl⟩
      replace h : o.policies.synced = true := h
      cases hp : o.policies
      simp_all
  · exact ⟨rfl, rfl, rfl⟩

/-- `Agrees` only depends on the versions under the keys of the namespace. -/
theorem Agrees.of_sameVersions (hv : Versioned P) {ns : String} (h : Agrees ns o)
    (hp : o.policies.index.Textual P) (hp' : o'.policies.index.Textual P)
    (he : o'.enforced = o.enforced)
    (hs : ∀ name, WatchCache.SameVersions (o.policies.index.get? ⟨.text ns, .text name⟩)
      (o'.policies.index.get? ⟨.text ns, .text name⟩)) : Agrees ns o' := by
  have absent : ∀ name, o.policies.index.get? ⟨.text ns, .text name⟩ = none →
      o'.policies.index.get? ⟨.text ns, .text name⟩ = none := by
    intro name hn
    have := hs name
    rw [hn] at this
    cases hn' : o'.policies.index.get? ⟨.text ns, .text name⟩ with
    | none => rfl
    | some new => rw [hn'] at this; exact absurd this id
  rcases h with ⟨name, old, p, ⟨hold, hfirst⟩, hread, henf⟩ | ⟨hnone, henf⟩
  · have same := hs name
    rw [hold] at same
    cases hnew : o'.policies.index.get? ⟨.text ns, .text name⟩ with
    | none => rw [hnew] at same; exact absurd same id
    | some new =>
        rw [hnew] at same
        obtain ⟨hat, hpo⟩ := hp.isAt_of_get? hold
        obtain ⟨hat', hpo'⟩ := hp'.isAt_of_get? hnew
        refine Or.inl ⟨name, new, p, ⟨hnew, ?_⟩, ?_, by rwa [he]⟩
        · intro other ho
          exact hfirst other fun hn => ho (absent other hn)
        · rw [← hv.alike old new ns name hpo hpo' hat hat' same, hread]
  · exact Or.inr ⟨fun name => absent name (hnone name), by rwa [he]⟩

/-- After `deliverAll` of `changes`, a namespace is pending or its versions are the same. -/
theorem replaced_covered (hv : Versioned P) (h : Settled P o) {c : WatchCache}
    (hc : c.index.Textual P) (ns : String) :
    let o' := (host .policies).deliverAll (WatchCache.changes o.policies.index c.index)
      (setCache .policies c o)
    o'.queue.Pending (.text ns) ∨ Agrees ns o' := by
  intro o'
  have told : Keeps (setCache .policies c o) o' := deliverAll_keeps .policies _ _
  have hpol : o'.policies = c := told.policies
  have henf : o'.enforced = o.enforced := told.enforced
  rcases h.covered ns with hp | ha
  · exact Or.inl (told.pending _ hp)
  · by_cases hchange : ∃ d ∈ WatchCache.changes o.policies.index c.index,
        ∃ name, d.object.IsAt ns name ∧ ns ≠ ""
    · obtain ⟨d, hd, name, hat, hns⟩ := hchange
      exact Or.inl (deliverAll_pending (o := setCache .policies c o) h.serving hd hat hns)
    · refine Or.inr (ha.of_sameVersions hv h.textual (by rwa [hpol]) henf ?_)
      intro name
      rw [hpol]
      rcases WatchCache.changes_cover_named hv.identified h.textual hc ns name with
        ⟨d, hd, hat⟩ | hs
      · exact absurd ⟨d, hd, name, hat⟩ hchange
      · exact hs

theorem relist_policies_settled (hv : Versioned P) (h : Settled P o)
    {response : Except Fault ApiObject} (hr : WatchCache.Lists P response) :
    Settled P ((host .policies).relist response o).2 := by
  cases hlisted : WatchCache.listed response with
  | error f =>
      rw [CacheHost.relist_unlisted hlisted]
      exact h
  | ok es =>
      let c : WatchCache := { o.policies with index := Index.ofList es }
      have htext : c.index.Textual P :=
        WatchCache.listed_textual hv.identified.located hr hlisted
      have covered := replaced_covered hv h htext
      have told := deliverAll_keeps .policies (WatchCache.changes o.policies.index c.index)
        (setCache .policies c o)
      have e : ((host .policies).relist response o).2 =
          (host .policies).markSynced c.index.objects.length
            ((host .policies).deliverAll (WatchCache.changes o.policies.index c.index)
              (setCache .policies c o)) := CacheHost.relist_listed hlisted o
      obtain ⟨hpol, henf, hq⟩ := markSynced_policies c.index.objects.length
        ((host .policies).deliverAll (WatchCache.changes o.policies.index c.index)
          (setCache .policies c o))
      rw [e]
      refine ⟨?_, ?_, ?_, ?_⟩
      · rw [hq, told.shuttingDown]
        exact h.serving
      · rw [hpol, told.policies]
        exact htext
      · rw [hpol]
        intro hu
        cases hu
      · intro ns
        rw [hq]
        exact (covered ns).imp id fun ha =>
          ha.congr (fun _ => by rw [hpol]) (by rw [henf])

theorem apply_policies_settled (hv : Versioned P) (h : Settled P o)
    (hs : o.policies.synced = true) (kind : ChangeKind) {x : ApiObject} (hx : P x) :
    Settled P ((host .policies).apply kind x o).2 := by
  obtain ⟨ns, name, hat, hns⟩ := hv.identified x hx
  obtain ⟨i, hi, htext, left⟩ := WatchCache.apply_located kind hx hat h.textual
  have e : ((host .policies).apply kind x o).2 = (host .policies).deliverAll [⟨kind, x⟩]
      (setCache .policies { o.policies with index := i } o) :=
    congrArg Prod.snd (CacheHost.apply_applied (h := host .policies) hi)
  have told := deliverAll_keeps .policies [⟨kind, x⟩]
    (setCache .policies { o.policies with index := i } o)
  rw [e]
  refine ⟨told.shuttingDown.trans h.serving, ?_, ?_, ?_⟩
  · rw [told.policies]
    exact htext
  · rw [told.policies]
    intro hu
    exact absurd (hs.symm.trans hu) (by decide)
  · intro other
    by_cases ho : other = ns
    · subst ho
      have single : (⟨kind, x⟩ : Change) ∈ [⟨kind, x⟩] := List.mem_singleton_self _
      exact Or.inl (deliverAll_pending (o := setCache .policies { o.policies with index := i } o)
        h.serving single hat hns)
    · rcases h.covered other with hp | ha
      · exact Or.inl (told.pending _ hp)
      · refine Or.inr (ha.congr ?_ (by rw [told.enforced]; rfl))
        intro n
        rw [told.policies]
        exact WatchCache.apply_other_namespace ho left n

/-! ### Reconciling -/

theorem onSite_apply {α : Type} (a : Act (Site σ τ) α) (o : Operator σ τ) :
    onSite a o = ((a o.site).1, { o with site := (a o.site).2 }) := rfl

theorem enforced_erase {k : Key} {d : List (Key × Policy)} (h : Dictionary.get? k d = none)
    (j : Key) : Dictionary.get? j d = if j == k then none else Dictionary.get? j d := by
  split
  · next hj => rw [Dictionary.get?_congr hj, h]
  · rfl

theorem removeEnforced_apply {ns : Json} {k : Key} (hk : Key.ofJson ns = .ok k)
    (o : Operator σ τ) :
    ∃ v t e, removeEnforced ns o = (.ok v, { o with site := t, enforced := e }) ∧
      (t.cluster = o.site.cluster ∧ t.metrics = o.site.metrics) ∧
      ∀ j, Dictionary.get? j e = if j == k then none else Dictionary.get? j o.enforced := by
  unfold removeEnforced
  rw [Act.bind_apply, Act.state_apply]
  dsimp only
  split
  · next he =>
      refine ⟨none, o.site, o.enforced, rfl, ⟨rfl, rfl⟩, enforced_erase ?_⟩
      rw [List.isEmpty_iff.mp he]
      rfl
  · rw [Act.bind_apply, Act.lift_apply, hk]
    dsimp only
    unfold takeEnforced
    rw [Act.bind_apply, Act.state_apply]
    dsimp only
    cases hg : Dictionary.get? k o.enforced with
    | none => exact ⟨none, o.site, o.enforced, rfl, ⟨rfl, rfl⟩, enforced_erase hg⟩
    | some p =>
        exact ⟨some p, _, _, rfl, ⟨rfl, rfl⟩, fun j => Dictionary.get?_erase j k o.enforced⟩

/-- `setEnforced p` fails, or stores `p` under the key of `p.ns`. -/
theorem setEnforced_cases {α : Type} (p : Policy) (a : Act (Operator σ τ) α) (o : Operator σ τ) :
    (∃ f, (setEnforced p >>= fun _ => a) o = (.error f, o)) ∨
      ∃ j, Key.ofJson p.ns = .ok j ∧ (setEnforced p >>= fun _ => a) o =
        a { o with enforced := Dictionary.set j p o.enforced } := by
  unfold setEnforced
  cases hj : Key.ofJson p.ns with
  | error f => exact Or.inl ⟨f, rfl⟩
  | ok j => exact Or.inr ⟨j, rfl, rfl⟩

theorem onSite_map {α β : Type} (f : α → β) (a : Act (Site σ τ) α) (o : Operator σ τ) :
    (f <$> onSite a) o = ((a o.site).1.map f, { o with site := (a o.site).2 }) := by
  rw [Act.map_apply, onSite_apply]

variable [TimeScale τ] [ClusterApi σ]

/-- What `sync` does to `enforced`: nothing if `policiesOf` fails, else it forgets `ns` or stores
the first policy of `ns`. -/
theorem sync_cases (options : EnforcementOptions) {ns : Json} {k : Key}
    (hk : Key.ofJson ns = .ok k) (o : Operator σ τ) :
    (∃ f t, sync options ns o = (.error f, { o with site := t })) ∨
    (∃ v t e, o.policies.listIn ns = .ok [] ∧
      sync options ns o = (.ok v, { o with site := t, enforced := e }) ∧
      ∀ j, Dictionary.get? j e = if j == k then none else Dictionary.get? j o.enforced) ∨
    ∃ object r p j result t, o.policies.listIn ns = .ok (object :: r) ∧ object.policy? = .ok p ∧
      Key.ofJson p.ns = .ok j ∧ sync options ns o =
        (result, { o with site := t, enforced := Dictionary.set j p o.enforced }) := by
  have read : policiesOf ns o = onSite (QuotaWarden.policiesOf o.policies ns) o := rfl
  unfold sync
  rw [Act.bind_apply, read, onSite_apply]
  unfold QuotaWarden.policiesOf
  rw [Act.bind_apply, Act.lift_apply]
  cases hl : o.policies.listIn ns with
  | error f => exact Or.inl ⟨f, _, rfl⟩
  | ok objects =>
      dsimp only
      rcases hr : readAllWithWarnings objects o.site with ⟨result, t⟩
      cases result with
      | error f => exact Or.inl ⟨f, t, rfl⟩
      | ok ps =>
          cases objects with
          | nil =>
              obtain ⟨rfl, rfl⟩ : [] = ps ∧ o.site = t := by
                simpa [readAllWithWarnings] using hr
              obtain ⟨v, t, e, he, _, hget⟩ := removeEnforced_apply hk o
              refine Or.inr (Or.inl ⟨none, t, e, rfl, ?_, hget⟩)
              exact Act.bind_of_ok he
          | cons object r =>
              obtain ⟨p, others, rfl, hp⟩ := readAllWithWarnings_cons_ok hr
              dsimp only
              rw [Act.bind_apply, onSite_apply]
              obtain ⟨warned, t⟩ := warnOfMany ns p (others.length + 1) t
              cases warned with
              | error f => exact Or.inl ⟨f, t, rfl⟩
              | ok _ =>
                  rcases setEnforced_cases p (some <$> onSite (reconcile options ns p))
                      { o with site := t } with ⟨f, e⟩ | ⟨j, hj, e⟩
                  · exact Or.inl ⟨f, t, e⟩
                  · have er := onSite_map some (reconcile options ns p)
                      { o with site := t, enforced := Dictionary.set j p o.enforced }
                    exact Or.inr (Or.inr ⟨object, r, p, j, _, _, rfl, hp, hj, e.trans er⟩)

/-- `Key.ofJson k.toJson` is a key, and equals a text only if `k` is that text. -/
theorem ofJson_toJson (k : Key) :
    ∃ j, Key.ofJson k.toJson = .ok j ∧ ∀ s, (Key.text s == j) = true → k = .text s := by
  cases k with
  | text t => exact ⟨.text t, rfl, fun s h => by simpa using Key.text_beq_iff.mp h⟩
  | null => exact ⟨.null, rfl, fun s h => absurd (Key.text_beq_iff.mp h) (by simp)⟩
  | bool b => exact ⟨.bool b, rfl, fun s h => absurd (Key.text_beq_iff.mp h) (by simp)⟩
  | int n => exact ⟨.int n, rfl, fun s h => absurd (Key.text_beq_iff.mp h) (by simp)⟩
  | fraction bits =>
      exact ⟨.fraction _, rfl, fun s h => absurd (Key.text_beq_iff.mp h) (by simp)⟩

omit [TimeScale τ] [ClusterApi σ] in
theorem Settled.listIn_nil (h : Settled P o) {ns : String}
    (hl : o.policies.listIn (.str ns) = .ok []) (name : String) :
    o.policies.index.get? ⟨.text ns, .text name⟩ = none := by
  cases hs : o.policies.synced with
  | false =>
      rw [h.unlisted hs]
      rfl
  | true =>
      have hin : o.policies.index.inNamespace (.text ns) = .ok [] := by
        simpa [WatchCache.listIn, hs, Key.ofJson, bind, Except.bind] using hl
      rcases h.textual.inNamespace_cases ns with ⟨_, hn⟩ | ⟨x, r, _, e, _⟩
      · exact hn name
      · rw [hin] at e
        exact absurd (Except.ok.inj e) (by simp)

theorem listIn_eq {c : WatchCache} (hs : c.synced = true) {k j : Key} (hn : k ≠ .null)
    (hj : Key.ofJson k.toJson = .ok j) : c.listIn k.toJson = c.index.inNamespace j := by
  cases k with
  | null => exact absurd rfl hn
  | _ => simp only [Key.toJson] at hj ⊢; simp [WatchCache.listIn, hs, hj, bind, Except.bind]

omit [TimeScale τ] [ClusterApi σ] in
/-- The first object of `listIn` is `IsFirst` in its namespace, which is `k` if `k` is a text. -/
theorem Settled.listIn_cons (h : Settled P o) {k : Key} {x : ApiObject} {r : List ApiObject}
    (hl : o.policies.listIn k.toJson = .ok (x :: r)) :
    ∃ ns name, o.policies.index.IsFirst ns name x ∧ ∀ s, k = .text s → s = ns := by
  cases hs : o.policies.synced with
  | false => cases k <;> simp [Key.toJson, WatchCache.listIn, WatchCache.list, hs] at hl
  | true =>
      by_cases hnull : k = .null
      · have hall : o.policies.index.all = .ok (x :: r) := by
          simpa [hnull, Key.toJson, WatchCache.listIn, WatchCache.list, hs] using hl
        rcases h.textual.all_cases with e | ⟨y, r', ns, name, e, hf⟩
        · rw [hall] at e
          exact absurd (Except.ok.inj e) (by simp)
        · rw [hall, Except.ok.injEq, List.cons.injEq] at e
          rw [← e.1] at hf
          exact ⟨ns, name, hf, fun s hk => absurd (hk.symm.trans hnull) (by simp)⟩
      · obtain ⟨j, hkj, htext⟩ := ofJson_toJson k
        rw [listIn_eq hs hnull hkj] at hl
        by_cases hj : ∃ ns, j = .text ns
        · obtain ⟨ns, rfl⟩ := hj
          have hk := htext ns (BEq.refl _)
          rcases h.textual.inNamespace_cases ns with ⟨e, _⟩ | ⟨y, r', name, e, hf⟩
          · rw [hl] at e
            exact absurd (Except.ok.inj e) (by simp)
          · rw [hl, Except.ok.injEq, List.cons.injEq] at e
            rw [← e.1] at hf
            exact ⟨ns, name, hf, fun s hs => Key.text.inj (hs.symm.trans hk)⟩
        · rw [h.textual.inNamespace_of_not_text fun s hs => hj ⟨s, hs⟩] at hl
          exact absurd (Except.ok.inj hl) (by simp)

/-- `sync` keeps the queue, the policies and what agreed; if it succeeds, `ns` agrees. -/
theorem Settled.sync (hid : WatchCache.Identified P) (h : Settled P o)
    (options : EnforcementOptions) (k : Key) {result : Except Fault (Option Verdict)}
    (hs : sync options k.toJson o = (result, o')) :
    o'.queue = o.queue ∧ o'.policies = o.policies ∧ (∀ ns, Agrees ns o → Agrees ns o') ∧
      ∀ v, result = .ok v → ∀ ns, k = .text ns → Agrees ns o' := by
  obtain ⟨j, hkj, htext⟩ := ofJson_toJson k
  rcases sync_cases options hkj o with ⟨f, t, e⟩ | ⟨v, t, d, hl, e, hget⟩ |
    ⟨x, r, p, i, res, t, hl, hp, hi, e⟩
  · rw [hs, Prod.mk.injEq] at e
    obtain ⟨rfl, rfl⟩ := e
    exact ⟨rfl, rfl, fun ns ha => ha.congr (fun _ => rfl) rfl, nofun⟩
  · rw [hs, Prod.mk.injEq] at e
    obtain ⟨rfl, rfl⟩ := e
    have gone : ∀ ns, (Key.text ns == j) = true →
        Agrees ns { o with site := t, enforced := d } := by
      intro ns hns
      rw [htext ns hns] at hl
      exact Or.inr ⟨h.listIn_nil hl, by rw [hget, if_pos hns]⟩
    refine ⟨rfl, rfl, ?_, ?_⟩
    · intro ns ha
      by_cases hns : (Key.text ns == j) = true
      · exact gone ns hns
      · exact ha.congr (fun _ => rfl) (by rw [hget, if_neg hns])
    · rintro _ _ ns rfl
      refine gone ns ?_
      rw [Key.toJson, Key.ofJson, Except.ok.injEq] at hkj
      simp [hkj]
  · rw [hs, Prod.mk.injEq] at e
    obtain ⟨rfl, rfl⟩ := e
    obtain ⟨first, name, hf, hfirst⟩ := h.listIn_cons hl
    obtain ⟨hat, hx⟩ := h.textual.isAt_of_get? hf.1
    obtain ⟨ns', name', hat', hns⟩ := hid x hx
    rw [← (hat.unique hat').1] at hns
    obtain ⟨version, hv⟩ := hat
    rw [ns_of_policy? hv rfl hns hp, Key.ofJson, Except.ok.injEq] at hi
    subst hi
    have set : Agrees first
        { o with site := t, enforced := Dictionary.set (.text first) p o.enforced } :=
      Or.inl ⟨name, x, p, hf, hp, Dictionary.get?_set_self _ _ _⟩
    refine ⟨rfl, rfl, ?_, ?_⟩
    · intro ns ha
      by_cases hne : ns = first
      · rwa [hne]
      · refine ha.congr (fun _ => rfl) (Dictionary.get?_set_of_ne ?_ _ _)
        simpa using hne
    · intro _ _ ns hk
      rwa [hfirst ns hk]

/-! ### Workers -/

omit [ClusterApi σ] in
theorem retryLater_queue (k : Key) (o : Operator σ τ) :
    (o.retryLater k).queue = o.queue.addRateLimited o.site.now k := rfl

/-- `processKey` keeps `Settled`: its namespace agrees, or is pending for another try. -/
theorem processKey_settled (hid : WatchCache.Identified P) (h : Settled P o)
    (options : EnforcementOptions) (k : Key) : Settled P (processKey options k o) := by
  unfold processKey
  rcases hs : Operator.sync options k.toJson o with ⟨result, o₁⟩
  obtain ⟨hq, hpol, hagrees, hdone⟩ := h.sync hid options k hs
  have serving : o₁.queue.shuttingDown = false := by rw [hq]; exact h.serving
  have textual : o₁.policies.index.Textual P := by rw [hpol]; exact h.textual
  have unlisted : o₁.policies.synced = false → o₁.policies.index = .empty := by
    rw [hpol]
    exact h.unlisted
  have covered : ∀ ns, o₁.queue.Pending (.text ns) ∨ Agrees ns o₁ := by
    intro ns
    rw [hq]
    exact (h.covered ns).imp id (hagrees ns)
  have apart : ∀ {ns : String}, k ≠ .text ns → (Key.text ns == k) = false :=
    fun hk => Bool.eq_false_iff.mpr fun h => hk (Key.text_beq_iff.mp h)
  cases result with
  | ok v =>
      refine ⟨?_, textual, unlisted, ?_⟩
      · rw [WorkQueue.release_shuttingDown]
        exact serving
      · intro ns
        by_cases hk : k = .text ns
        · exact Or.inr ((hdone v rfl ns hk).congr (fun _ => rfl) rfl)
        · rcases covered ns with hp | ha
          · exact Or.inl (WorkQueue.Pending.release (q := o₁.queue.forget k) hp (apart hk))
          · exact Or.inr (ha.congr (fun _ => rfl) rfl)
  | error f =>
      have waits : ((o₁.log (failureLine k f)).retryLater k).queue.Waiting k :=
        WorkQueue.addRateLimited_waiting serving _ k
      refine ⟨?_, textual, unlisted, ?_⟩
      · rw [WorkQueue.release_shuttingDown, retryLater_queue, WorkQueue.addRateLimited_shuttingDown]
        exact serving
      · intro ns
        by_cases hk : k = .text ns
        · rw [hk] at waits ⊢
          exact Or.inl (Or.inl (waits.release _))
        · rcases covered ns with hp | ha
          · exact Or.inl ((hp.addRateLimited _ k).release (apart hk))
          · exact Or.inr (ha.congr (fun _ => rfl) rfl)

omit [TimeScale τ] [ClusterApi σ] in
theorem take_keeps (o : Operator σ τ) : Keeps o { o with queue := o.queue.take.2 } :=
  ⟨rfl, rfl, WorkQueue.take_shuttingDown, fun _ h => h.take⟩

theorem processNext_settled (hid : WatchCache.Identified P) (h : Settled P o)
    (options : EnforcementOptions) : Settled P (processNext options o).2 := by
  have taken := h.keeps (take_keeps o)
  unfold processNext
  rcases ht : o.queue.take with ⟨t, q⟩
  rw [ht] at taken
  cases t with
  | key k => exact processKey_settled hid taken options k
  | shutDown => exact taken
  | nothing => exact taken

/-! ### Rounds over all namespaces -/

omit [TimeScale τ] [ClusterApi σ] in
theorem enqueueAll_keeps (names : List (Option String)) (o : Operator σ τ) :
    Keeps o (enqueueAll names o) := by
  unfold enqueueAll
  induction names generalizing o with
  | nil => exact Keeps.refl o
  | cons n r ih => exact (enqueue_keeps _ o).trans (ih _)

omit [TimeScale τ] in
/-- `resyncAll` after a refused listing, after any other fault of it, and after a listing. -/
theorem resyncAll_cases (o : Operator σ τ) :
    (∃ r t, Site.call ClusterApi.listNamespaces o.site = (.error (.refused r), t) ∧
      resyncAll o = (.ok 0, { o with site := t }.log
        ⟨.error, "[Resync] Error listing namespaces: " ++ r.text⟩)) ∨
    (∃ f t, Site.call ClusterApi.listNamespaces o.site = (.error f, t) ∧ f.refusal? = none ∧
      resyncAll o = (.error f, { o with site := t })) ∨
    ∃ l t, Site.call ClusterApi.listNamespaces o.site = (.ok l, t) ∧
      resyncAll o = (.ok l.names.length, (enqueueAll l.names { o with site := t }).inform
        ("[Resync] Queued " ++ toString l.names.length ++
          " namespaces for periodic enforcement")) := by
  unfold resyncAll
  rw [Act.bind_apply, Act.attempt_apply, onSite_apply]
  rcases Site.call ClusterApi.listNamespaces o.site with ⟨answer, t⟩
  cases answer with
  | ok l => exact Or.inr (Or.inr ⟨l, t, rfl, rfl⟩)
  | error f =>
      cases f with
      | refused r => exact Or.inl ⟨r, t, rfl, rfl⟩
      | _ => exact Or.inr (Or.inl ⟨_, t, rfl, rfl, rfl⟩)

omit [TimeScale τ] in
theorem resyncAll_keeps (o : Operator σ τ) : Keeps o (resyncAll o).2 := by
  rcases resyncAll_cases o with ⟨_, t, _, e⟩ | ⟨_, t, _, _, e⟩ | ⟨l, t, _, e⟩
  · rw [e]
    exact Keeps.of_eq rfl rfl rfl
  · rw [e]
    exact Keeps.of_eq rfl rfl rfl
  · have listed : Keeps o (enqueueAll l.names { o with site := t }) :=
      (Keeps.site o t).trans (enqueueAll_keeps l.names { o with site := t })
    rw [e]
    exact listed.trans (Keeps.of_eq rfl rfl rfl)

/-! ### Moves -/

/-- A step of the operator. -/
inductive Move (σ τ : Type) where
  /-- A cache is given the outcome of a list call. -/
  | relist (k : WatchedKind) (response : Except Fault ApiObject)
  /-- A cache is given an event of its watch. -/
  | event (k : WatchedKind) (kind : ChangeKind) (object : ApiObject)
  /-- A cache tells of all its objects. -/
  | resyncCache (k : WatchedKind)
  | resyncAll
  /-- A worker takes a namespace. -/
  | take
  /-- A worker reconciles a namespace and releases it. -/
  | work (k : Key)
  /-- A worker takes a namespace, reconciles it and releases it. -/
  | process
  /-- The delivering loop passes. -/
  | deliver (now : τ)
  /-- The cluster, the clock or the journal change by themselves. -/
  | elsewhere (site : Site σ τ)

namespace Move

/-- The operator after a move. -/
def run (options : EnforcementOptions) (o : Operator σ τ) : Move σ τ → Operator σ τ
  | relist k response => ((host k).relist response o).2
  | event k kind x => ((host k).apply kind x o).2
  | resyncCache k => (host k).resync o
  | resyncAll => (Operator.resyncAll o).2
  | take => { o with queue := o.queue.take.2 }
  | work k => processKey options k o
  | process => (processNext options o).2
  | deliver now => { o with queue := o.queue.deliver now }
  | elsewhere site => { o with site }

omit [TimeScale τ] [ClusterApi σ]

/-- The policies that a move brings are from `P`. -/
def About (P : ApiObject → Prop) : Move σ τ → Prop
  | relist .policies response =>
    ∀ list objects, response = .ok list → list.items = .ok objects → ∀ x ∈ objects, P x
  | event .policies _ x => P x
  | _ => True

/-- An event about a policy only comes after a list response. -/
def AfterList (o : Operator σ τ) : Move σ τ → Prop
  | event .policies _ _ => o.policies.synced = true
  | _ => True

end Move

/-- The states that an operator reaches by moves that are allowed. -/
inductive Reaches (allowed : Operator σ τ → Move σ τ → Prop) (options : EnforcementOptions)
    (cluster : σ) : Operator σ τ → Prop
  | start : Reaches allowed options cluster (start cluster)
  | move {o : Operator σ τ} (m : Move σ τ) : Reaches allowed options cluster o → allowed o m →
      Reaches allowed options cluster (m.run options o)

theorem Settled.move (hv : Versioned P) (h : Settled P o) (options : EnforcementOptions)
    {m : Move σ τ} (hm : m.About P) (hl : m.AfterList o) : Settled P (m.run options o) := by
  cases m with
  | relist k response =>
      by_cases hk : k = .policies
      · subst hk
        exact relist_policies_settled hv h hm
      · exact h.keeps (relist_keeps hk response o)
  | event k kind x =>
      by_cases hk : k = .policies
      · subst hk
        exact apply_policies_settled hv h hl kind hm
      · exact h.keeps (apply_keeps hk kind x o)
  | resyncCache k => exact h.keeps (deliverAll_keeps k _ o)
  | resyncAll => exact h.keeps (resyncAll_keeps o)
  | take => exact h.keeps (take_keeps o)
  | work k => exact processKey_settled hv.identified h options k
  | process => exact processNext_settled hv.identified h options
  | deliver now =>
      exact h.keeps ⟨rfl, rfl, WorkQueue.deliver_shuttingDown now, fun _ hp => hp.deliver now⟩
  | elsewhere site => exact h.keeps (Keeps.site o site)

theorem Reaches.settled (hv : Versioned P) {options : EnforcementOptions} {cluster : σ}
    (h : Reaches (fun o m => m.About P ∧ m.AfterList o) options cluster o) : Settled P o := by
  induction h with
  | start => exact start_settled cluster
  | move m _ hm ih => exact ih.move hv options hm.1 hm.2

/-- **No policy change is missed.** In every state that an operator reaches, a namespace is pending
or agrees with the cache of policies; so all of them agree once the queue is drained. -/
theorem reaches_agrees (hv : Versioned P) {options : EnforcementOptions} {cluster : σ}
    (h : Reaches (fun o m => m.About P ∧ m.AfterList o) options cluster o) :
    (∀ ns, o.queue.Pending (.text ns) ∨ Agrees ns o) ∧ (o.queue.Drained → ∀ ns, Agrees ns o) := by
  have covered := (h.settled hv).covered
  refine ⟨covered, fun hd ns => ?_⟩
  exact (covered ns).resolve_left (hd.not_pending _)

/-- A policy of the namespace `team-a`. -/
def quota : ApiObject :=
  .untyped (.obj [("metadata", .obj [("name", .str "quota"), ("namespace", .str "team-a"),
    ("resourceVersion", .str "1")]), ("spec", .obj [("maxPods", .int 3)])])

theorem quota_versioned : Versioned (· = quota) := by
  constructor
  · rintro _ rfl
    exact ⟨"team-a", "quota", ⟨.str "1", rfl⟩, by decide⟩
  · rintro _ _ _ _ rfl rfl _ _ _
    rfl

/-- A list response with that policy. -/
def quotaListed : Move InMemory Float := .relist .policies (.ok (.list [quota] (some "1")))

theorem quotaListed_about : quotaListed.About (· = quota) := by
  rintro _ _ ⟨⟩ ⟨⟩ _ hx
  exact List.mem_singleton.mp hx

/-- The policy is listed, then its namespace is reconciled: nothing is pending, and the namespace
agrees. -/
theorem reaches_agrees_listed :
    let o : Operator InMemory Float :=
      Move.run .standard (Move.run .standard (start .empty) quotaListed) .process
    Versioned (· = quota) ∧
      Reaches (fun o m => m.About (· = quota) ∧ m.AfterList o) .standard .empty o ∧
      o.queue.Drained ∧ Agrees "team-a" o := by
  intro o
  have reached : Reaches (fun o m => m.About (· = quota) ∧ m.AfterList o) .standard .empty o :=
    .move .process (.move quotaListed .start ⟨quotaListed_about, trivial⟩) ⟨trivial, trivial⟩
  have drained : o.queue.Drained :=
    ⟨by decide +kernel, by decide +kernel, by decide +kernel⟩
  exact ⟨quota_versioned, reached, drained, (reaches_agrees quota_versioned reached).2 drained _⟩

/-- An event about the policy comes before the first list response, while the cache tells nothing,
and its namespace is reconciled. The response then holds the version that the cache has already, so
nothing is told: the policy is in the cache, and the namespace was never reconciled against it. -/
theorem reaches_unlisted :
    let o : Operator InMemory Float := Move.run .standard (Move.run .standard
      (Move.run .standard (start .empty) (.event .policies .added quota)) .process) quotaListed
    Versioned (· = quota) ∧ Reaches (fun _ m => m.About (· = quota)) .standard .empty o ∧
      o.queue.Drained ∧ ¬ Agrees "team-a" o := by
  intro o
  refine ⟨quota_versioned, ?_, ⟨rfl, rfl, rfl⟩, ?_⟩
  · exact .move quotaListed (.move .process (.move (.event .policies .added quota) .start rfl)
      trivial) quotaListed_about
  · have stored : o.policies.index.get? ⟨.text "team-a", .text "quota"⟩ = some quota := rfl
    rintro (⟨_, _, _, _, _, henf⟩ | ⟨hnone, _⟩)
    · exact absurd henf (by simp [show o.enforced = [] from rfl, Dictionary.get?])
    · rw [hnone "quota"] at stored
      exact absurd stored (by simp)
end QuotaWarden.Operator
