import QuotaWarden.Cluster.InMemory
import QuotaWarden.Proofs.EvictionOrder
import QuotaWarden.Proofs.EvictionSteps

/-! # Convergence of eviction

In a cluster that nobody else changes an enforcement evicts along the order of the first listing. It
ends when every limit is respected, or at the cap.

* `Static` is the cluster: it lists what is left, and a delete takes out exactly one pod.
* `enforceRounds_converges` is the induction on the deletes that are left, `enforce_converges` the
  result for a whole enforcement.
* `InMemory.static`: a cluster in memory is one such cluster. -/

namespace QuotaWarden

/-- A cluster that shows some pods of a namespace, after some pods were deleted, and that nobody
else changes. -/
structure Static {σ : Type} [ClusterApi σ] (ns : Json) (shows : σ → List Pod → List Pod → Prop) :
    Prop where
  lists : ∀ {c pods deleted}, shows c pods deleted →
    ∃ c', ClusterApi.listPods ns c = (.ok pods, c') ∧ shows c' pods deleted
  deletes : ∀ {c pods deleted q m}, shows c pods deleted → q ∈ pods → q.metadata = some m →
    ∃ c', ClusterApi.deletePod m.ns m.name deleteGraceSeconds c = (.ok (), c') ∧
      shows c' (without q pods) (deleted ++ [q])

section

variable {σ τ : Type} [ClusterApi σ] [TimeScale τ] {ns : Json}
  {shows : σ → List Pod → List Pod → Prop} {o : EnforcementOptions} {p : Policy} {s : Site σ τ}
  {c : σ} {pods deleted : List Pod} {q : Pod} {n : Nat} {v : Verdict}

/-- A cluster after so many evictions along the order of a listing, and the verdict on it. -/
structure Converged (shows : σ → List Pod → List Pod → Prop) (p : Policy) (pods deleted : List Pod)
    (n : Nat) (v : Verdict) (c : σ) : Prop where
  shown : shows c (survivors p pods n) (deleted ++ (evictionOrder p pods).take n)
  verdict : verdictOn p (survivors p pods n) = .ok v

omit [ClusterApi σ] in
theorem Converged.zero (hs : shows c pods deleted) (hv : verdictOn p pods = .ok v) :
    Converged shows p pods deleted 0 v c := by
  constructor
  · rwa [survivors_zero, List.take_zero, List.append_nil]
  · rwa [survivors_zero]

omit [ClusterApi σ] in
theorem Converged.succ (horder : evictionOrder p pods = q :: evictionOrder p (without q pods))
    (h : Converged shows p (without q pods) (deleted ++ [q]) n v c) :
    Converged shows p pods deleted (n + 1) v c := by
  constructor
  · rw [survivors_succ horder, horder, List.take_succ_cons, List.append_cons]
    exact h.shown
  · rw [survivors_succ horder]
    exact h.verdict

/-- With `left` deletes, `enforceRounds` takes the first `min left evictions` pods of the order. -/
theorem enforceRounds_converges (hstatic : Static ns shows) (hdry : o.dryRun = false)
    (hc : o.choose = selectVictim) (hp : p.Writable) (left round : Nat)
    (hs : shows s.cluster pods deleted) (he : Evictable p pods) :
    ∃ v t, enforceRounds o ns p left round none s = (.ok v, t) ∧
      Converged shows p pods deleted (min left (p.evictions pods)) v t.cluster ∧
      (v.violated = false ↔ p.evictions pods ≤ left) := by
  induction left generalizing round s pods deleted with
  | zero =>
      obtain ⟨v, hv, _, _, hdue⟩ := verdict_of_order he.moderate_self hp
      obtain ⟨c, hl, hshows⟩ := hstatic.lists hs
      rw [Nat.zero_min, Nat.le_zero]
      cases hviolated : v.violated with
      | false =>
          exact ⟨v, _, enforceRounds_compliant o 0 round none hl hv hviolated,
            .zero hshows hv, by rw [← hdue]⟩
      | true =>
          obtain ⟨t, e, rfl, _⟩ := enforceRounds_exhausted o round hl hv hviolated
          exact ⟨v, t, e, .zero hshows hv, by rw [← hdue]⟩
  | succ left ih =>
      obtain ⟨v, hv, _, _, hdue⟩ := verdict_of_order he.moderate_self hp
      obtain ⟨c, hl, hshows⟩ := hstatic.lists hs
      cases hviolated : v.violated with
      | false =>
          rw [hdue.mp hviolated, Nat.min_zero]
          exact ⟨v, _, enforceRounds_compliant o (left + 1) round none hl hv hviolated,
            .zero hshows hv, by simp [hviolated]⟩
      | true =>
          obtain ⟨q, hq, hselect, horder, hcount⟩ := victim_heads_order he hp hv hviolated
          obtain ⟨m, hm⟩ := Option.ne_none_iff_exists'.mp (he.metadata q hq)
          obtain ⟨c', hdelete, hshows'⟩ := hstatic.deletes hshows (mem_livePods.mp hq).1 hm
          have hanswer : DeleteAnswer q c c' none := ⟨m, hm, hdelete⟩
          obtain ⟨t, e, rfl, _⟩ := enforceRounds_evicted o left round none hl hv hviolated
            (by rw [hc, hselect]) hdry hanswer
          obtain ⟨v', t', e', hconverged, hiff⟩ := ih (round + 1) hshows' (he.without horder hcount)
          refine ⟨v', t', e.trans e', ?_, ?_⟩
          · rw [hcount, Nat.succ_min_succ]
            exact hconverged.succ horder
          · rw [hcount, hiff, Nat.succ_le_succ_iff]

/-- **Eviction converges, and evicts no more than it must.** In a cluster that nobody else changes,
an enforcement deletes the first pods of the order of eviction, as many as are due or as the cap
allows. It returns the verdict on those that are left: a violation if and only if the cap is too
low. -/
theorem enforce_converges (hstatic : Static ns shows) (hdry : o.dryRun = false)
    (hc : o.choose = selectVictim) (hp : p.Writable) (hs : shows s.cluster pods [])
    (he : Evictable p pods) :
    ∃ v t n, enforce o ns p s = (.ok v, t) ∧ n = min o.cap.toNat (p.evictions pods) ∧
      ((evictionOrder p pods).take n).length = n ∧
      shows t.cluster (survivors p pods n) ((evictionOrder p pods).take n) ∧
      Usage.ofPods (survivors p pods n) = .ok v.usage ∧
      (v.violated = false ↔ p.evictions pods ≤ o.cap.toNat) := by
  obtain ⟨v, t, e, hconverged, hiff⟩ :=
    enforceRounds_converges hstatic hdry hc hp o.cap.toNat 1 hs he
  obtain ⟨v', hv', hu, _⟩ := verdictOn_ok (he.moderate _ (Nat.min_le_right _ _)) hp
  obtain rfl : v' = v := Except.ok.inj (hv'.symm.trans hconverged.verdict)
  refine ⟨v', t, _, e, rfl, ?_, hconverged.shown, hu, hiff⟩
  have := evictions_le p pods
  rw [List.length_take]
  omega

end

/-! ### Clusters in memory -/

namespace InMemory

/-- What a delete call tells a cluster of a pod. -/
def deleteRecord (q : Pod) : Option String × Option String × Int :=
  (q.metadata.bind (·.ns), q.metadata.bind (·.name), deleteGraceSeconds)

/-- A cluster of which no call fails shows pods, each one under its own key. -/
structure Shows (ns : Json) (c : InMemory) (pods deleted : List Pod) : Prop where
  script : c.script = []
  heeds : c.ignoresDeletes = false
  distinct : Dictionary.Distinct c.pods
  keyed : ∀ e ∈ c.pods, ∀ m, e.2.metadata = some m →
    (e.1 == (⟨.ofText m.ns, .ofText m.name⟩ : ObjectKey)) = true
  pods : c.podsIn ns = pods
  deletes : c.deletes = deleted.map deleteRecord

variable {ns : Json} {c : InMemory} {pods deleted : List Pod} {q : Pod} {m : PodMetadata}

theorem Shows.found (h : Shows ns c pods deleted) (hq : q ∈ pods) (hm : q.metadata = some m) :
    Dictionary.get? (⟨.ofText m.ns, .ofText m.name⟩ : ObjectKey) c.pods = some q ∧
      ∀ e ∈ c.pods, (e.1 == (⟨.ofText m.ns, .ofText m.name⟩ : ObjectKey)) = decide (e.2 = q) := by
  have hin := hq
  rw [← h.pods] at hin
  obtain ⟨⟨k, x⟩, hx, rfl⟩ := List.mem_map.mp hin
  have hentry := (List.mem_filter.mp hx).1
  have hfound := Dictionary.get?_of_mem h.distinct hentry
  rw [Dictionary.get?_congr (h.keyed _ hentry m hm)] at hfound
  refine ⟨hfound, fun e he => ?_⟩
  rw [Bool.eq_iff_iff, decide_eq_true_iff]
  constructor
  · intro hk
    have hget := Dictionary.get?_of_mem h.distinct (show (e.1, e.2) ∈ c.pods from he)
    rw [Dictionary.get?_congr hk, hfound] at hget
    exact (Option.some.inj hget).symm
  · intro heq
    exact h.keyed e he m (by rw [heq]; exact hm)

/-- `erasePod` of the key of `q` leaves `without q pods` in the listing. -/
theorem Shows.podsIn_erasePod (h : Shows ns c pods deleted) (hq : q ∈ pods)
    (hm : q.metadata = some m) :
    (c.erasePod ⟨.ofText m.ns, .ofText m.name⟩).podsIn ns = without q pods := by
  obtain ⟨_, hkey⟩ := h.found hq hm
  rw [← h.pods]
  unfold podsIn erasePod Dictionary.erase without
  rw [List.filter_map, List.filter_filter, List.filter_filter]
  refine congrArg _ (List.filter_congr fun e he => ?_)
  rw [hkey e he, Bool.and_comm]
  simp

/-- An `InMemory` cluster only changes by deletes. -/
theorem static (ns : Json) : Static ns (Shows ns) := by
  constructor
  · intro c pods deleted h
    refine ⟨c, ?_, h⟩
    change listPods ns c = _
    simp [listPods, begin, Act.bind_apply, h.script, Dictionary.get?, h.pods]
  · intro c pods deleted q m h hq hm
    obtain ⟨hfound, _⟩ := h.found hq hm
    refine ⟨{ c.erasePod ⟨.ofText m.ns, .ofText m.name⟩ with
      deletes := c.deletes ++ [(m.ns, m.name, deleteGraceSeconds)] }, ?_, ?_⟩
    · change deletePod m.ns m.name deleteGraceSeconds c = _
      simp [deletePod, begin, Act.bind_apply, h.script, h.heeds, Dictionary.get?, Dictionary.has,
        hfound, erasePod]
    · refine ⟨h.script, h.heeds, Dictionary.distinct_erase h.distinct _, ?_,
        h.podsIn_erasePod hq hm, ?_⟩
      · intro e he
        exact h.keyed e (Dictionary.mem_of_mem_erase he)
      · change c.deletes ++ [(m.ns, m.name, deleteGraceSeconds)] = _
        rw [h.deletes, List.map_append, List.map_singleton, deleteRecord, hm]
        rfl

/-- Three pods in one namespace, and one that has ended. -/
def crowded : InMemory :=
  let pod (name cpu phase : String) (created : Int) : ObjectKey × Pod :=
    (⟨.text "team-a", .text name⟩, ⟨some ⟨some name, some "team-a", none, some created⟩,
      some [⟨"main", some [("cpu", cpu)]⟩], some ⟨some phase⟩⟩)
  { empty with pods := [pod "web" "1" "Running" 30, pod "cache" "1500m" "Running" 20,
      pod "migrate" "8" "Succeeded" 15, pod "batch" "250m" "Running" 10] }

/-- A policy that allows two pods and two cores. -/
def twoOfBoth : Policy := ⟨.str "quota", .str "team-a", 2, 2, 0⟩

theorem crowded_shows : Shows (.str "team-a") crowded (crowded.podsIn (.str "team-a")) [] := by
  refine ⟨rfl, rfl, ?_, ?_, rfl, rfl⟩
  · unfold Dictionary.Distinct
    decide +kernel
  · decide +kernel

end InMemory

open InMemory Number

/-- The oldest pod goes for the number of pods, then the newest one for the cores. -/
theorem enforce_converges_crowded :
    let o : EnforcementOptions := ⟨false, 5, true, selectVictim⟩
    let ns : Json := .str "team-a"
    let s : Site InMemory Float := ⟨crowded, 0, [], .zero⟩
    Static ns (Shows ns) ∧ Evictable twoOfBoth (crowded.podsIn ns) ∧ twoOfBoth.Writable ∧
      ∃ v t, enforce o ns twoOfBoth s = (.ok v, t) ∧ v.violated = false ∧
        t.cluster.deletes =
          [(some "team-a", some "batch", 0), (some "team-a", some "web", 0)] := by
  intro o ns s
  have hwritable : twoOfBoth.Writable :=
    Policy.writable_of_amounts (Or.inr (Or.inr (by decide +kernel))) (Or.inr (Or.inl rfl))
  have hcount : (crowded.podsIn ns).length < tenTo digitLimit :=
    Nat.lt_of_lt_of_le (m := tenTo 1) (by decide +kernel) (tenTo_le_iff.mpr (by decide))
  have hevictable : Evictable twoOfBoth (crowded.podsIn ns) := by
    refine evictable_of_requests (k := 1) ?_ ?_ (by decide) (by decide) hcount ?_
    · decide +kernel
    · unfold DistinctAges
      decide +kernel
    · decide +kernel
  obtain ⟨v, t, n, e, hn, _, hshows, _, hiff⟩ := enforce_converges (o := o) (s := s)
    (InMemory.static ns) rfl rfl hwritable crowded_shows hevictable
  have hdue : twoOfBoth.evictions (crowded.podsIn ns) = 2 := by decide +kernel
  rw [hdue] at hn hiff
  obtain rfl : n = 2 := hn
  refine ⟨InMemory.static ns, hevictable, hwritable, v, t, e, hiff.mpr (by decide), ?_⟩
  rw [hshows.deletes]
  decide +kernel

end QuotaWarden
