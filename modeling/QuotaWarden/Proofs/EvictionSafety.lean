import QuotaWarden.Proofs.ClusterCalls
import QuotaWarden.Proofs.EvictionSteps
import QuotaWarden.Proofs.Victims
import Mathlib.Logic.Function.Iterate

/-! # Safety of eviction

An `Oracle` is a cluster that answers as it likes: each listing shows any pods or is refused, each
delete succeeds or is refused, and no answer has to go with another one. It records the calls.

* `Course` are the courses that an enforcement can take: one exchange after the other, and how it
  ends. On every cluster that answers or refuses its calls (`Amenable`) an enforcement makes the
  calls of a course and no others, and the answers in it are those of the cluster
  (`enforceRounds_follows`). On an oracle they are the calls that it records
  (`enforceRounds_course`).
* `Failing` says which courses fail (`Course.error_iff`).
* `Lawful` is what a course may do; `Course.lawful` derives it.
* `enforce_lawful` states both for a whole enforcement, together with the counter of deletes. -/

namespace QuotaWarden

open Number

/-! ### A cluster with arbitrary answers -/

/-- A call during an enforcement with its answer. -/
inductive Exchange where
  | listed (ns : Json) (answer : Except Refusal (List Pod))
  | deleted (ns name : Option String) (answer : Option Refusal)

namespace Exchange

def isList : Exchange → Bool
  | listed _ _ => true
  | deleted _ _ _ => false

def isDelete : Exchange → Bool
  | listed _ _ => false
  | deleted _ _ _ => true

/-- A delete after which the pod is gone. -/
def isGone : Exchange → Bool
  | listed _ _ => false
  | deleted _ _ answer => gone answer

end Exchange

/-- A cluster that answers its listings and its deletes from two sequences. -/
structure Oracle where
  lists : Nat → Except Refusal (List Pod)
  deletes : Nat → Option Refusal
  /-- The calls that were made, first one first. -/
  calls : List Exchange

namespace Oracle

/-- The cluster after a listing. -/
def afterList (ns : Json) (c : Oracle) : Oracle :=
  ⟨fun n => c.lists (n + 1), c.deletes, c.calls ++ [.listed ns (c.lists 0)]⟩

/-- The cluster after a delete. -/
def afterDelete (ns name : Option String) (c : Oracle) : Oracle :=
  ⟨c.lists, fun n => c.deletes (n + 1), c.calls ++ [.deleted ns name (c.deletes 0)]⟩

/-- The outcome of a listing. -/
def listOutcome : Except Refusal (List Pod) → Except Fault (List Pod)
  | .ok pods => .ok pods
  | .error r => .error (.refused r)

/-- Listings and deletes are answered; other calls break off. -/
instance : ClusterApi Oracle where
  listPods ns c := (listOutcome (c.lists 0), c.afterList ns)
  deletePod ns name _ c := (deleteOutcome (c.deletes 0), c.afterDelete ns name)
  listAllPods := Act.fail (.broken "")
  listNamespaces := Act.fail (.broken "")
  listPolicies := Act.fail (.broken "")
  getPolicy _ _ := Act.fail (.broken "")
  patchStatus _ _ _ := Act.fail (.broken "")
  createEvent _ := Act.fail (.broken "")

theorem listPods_eq {c : Oracle} {answer : Except Refusal (List Pod)} (h : c.lists 0 = answer)
    (ns : Json) : ClusterApi.listPods ns c = (listOutcome answer, c.afterList ns) := by
  rw [← h]
  rfl

end Oracle

/-! ### Courses -/

/-- The courses of an enforcement with so many deletes left and a refusal of the last one. -/
inductive Course (o : EnforcementOptions) (ns : Json) (p : Policy) :
    Nat → Option Refusal → List Exchange → Except Fault Verdict → Prop
  | unlisted {left : Nat} {last : Option Refusal} (r : Refusal) :
      Course o ns p left last [.listed ns (.error r)] (.error (.podsNotListed ns r))
  | compliant {left : Nat} {last : Option Refusal} {pods : List Pod} {v : Verdict} :
      verdictOn p pods = .ok v → v.violated = false →
      Course o ns p left last [.listed ns (.ok pods)] (.ok v)
  | dryRun {left : Nat} {last : Option Refusal} {pods : List Pod} {v : Verdict} :
      verdictOn p pods = .ok v → v.violated = true → o.dryRun = true →
      Course o ns p (left + 1) last [.listed ns (.ok pods)] (.ok v)
  | exhausted {pods : List Pod} {v : Verdict} :
      verdictOn p pods = .ok v → v.violated = true →
      Course o ns p 0 none [.listed ns (.ok pods)] (.ok v)
  | stillViolated {pods : List Pod} {v : Verdict} (r : Refusal) :
      verdictOn p pods = .ok v → v.violated = true →
      Course o ns p 0 (some r) [.listed ns (.ok pods)]
        (.error (.stillViolated ns p.name.display v.message r))
  | evicted {left : Nat} {last : Option Refusal} {pods : List Pod} {v : Verdict} {q : Pod}
      {m : PodMetadata} {calls : List Exchange} {result : Except Fault Verdict}
      (answer : Option Refusal) :
      verdictOn p pods = .ok v → v.violated = true → o.dryRun = false →
      selectVictim pods v.reason = .ok (some q) → q ∈ livePods pods → q.metadata = some m →
      Course o ns p left (refusalLeft answer) calls result →
      Course o ns p (left + 1) last
        (.listed ns (.ok pods) :: .deleted m.ns m.name answer :: calls) result

/-! ### Courses on a cluster -/

section clusters

variable {σ : Type} [ClusterApi σ]

/-- The call of an exchange. -/
def Exchange.call : Exchange → ClusterCall
  | .listed ns _ => .listPods ns
  | .deleted ns name _ => .deletePod ns name deleteGraceSeconds

/-- A cluster gives the answer of an exchange. -/
def Exchange.AnsweredBy (c : σ) : Exchange → Prop
  | .listed ns answer => (ClusterCall.listPods ns).reply c = Oracle.listOutcome answer
  | .deleted ns name answer =>
    (ClusterCall.deletePod ns name deleteGraceSeconds).reply c = deleteOutcome answer

/-- A cluster gives the answers of exchanges, one after the other. -/
def Answered : σ → List Exchange → Prop
  | _, [] => True
  | c, e :: r => e.AnsweredBy c ∧ Answered (e.call.after c) r

/-- What becomes of a cluster in the course of exchanges. -/
def afterExchanges (exchanges : List Exchange) (c : σ) : σ :=
  afterAll (exchanges.map Exchange.call) c

/-- Clusters of a kind answer the listings of a namespace and all deletes, or refuse them. What they
list can be evaluated, and live pods have metadata. -/
structure Amenable (ns : Json) (Kind : σ → Prop) : Prop where
  lists : ∀ c, Kind c → ∃ answer, (ClusterCall.listPods ns).reply c = Oracle.listOutcome answer ∧
    ∀ pods, answer = .ok pods → Moderate pods ∧ ∀ q ∈ livePods pods, q.metadata ≠ none
  deletes : ∀ c, Kind c → ∀ podNs name, ∃ answer,
    (ClusterCall.deletePod podNs name deleteGraceSeconds).reply c = deleteOutcome answer
  afterList : ∀ c, Kind c → Kind ((ClusterCall.listPods ns).after c)
  afterDelete : ∀ c, Kind c → ∀ podNs name,
    Kind ((ClusterCall.deletePod podNs name deleteGraceSeconds).after c)

variable {τ : Type} [TimeScale τ] (o : EnforcementOptions) (ns : Json) (p : Policy)

/-- An enforcement from some state makes the calls of a course. -/
def Follows (left round : Nat) (last : Option Refusal) (s : Site σ τ) : Prop :=
  ∃ exchanges t result, enforceRounds o ns p left round last s = (result, t) ∧
    t.cluster = afterExchanges exchanges s.cluster ∧ Answered s.cluster exchanges ∧
    t.metrics = (countDelete o ns)^[exchanges.countP Exchange.isGone] s.metrics ∧
    Course o ns p left last exchanges result

variable {o ns p} {Kind : σ → Prop} {s : Site σ τ} {left round : Nat} {last : Option Refusal}

omit [TimeScale τ] in
theorem listPods_apply {a : Except Refusal (List Pod)} {c : σ}
    (h : (ClusterCall.listPods ns).reply c = Oracle.listOutcome a) :
    ClusterApi.listPods ns c = (Oracle.listOutcome a, (ClusterCall.listPods ns).after c) :=
  Prod.ext h rfl

theorem follows_or_violated (ha : Amenable ns Kind) (hp : p.Writable) (hs : Kind s.cluster) :
    Follows o ns p left round last s ∨ ∃ pods v,
      (ClusterCall.listPods ns).reply s.cluster = .ok pods ∧ Moderate pods ∧
      (∀ q ∈ livePods pods, q.metadata ≠ none) ∧ verdictOn p pods = .ok v ∧ v.violated = true := by
  obtain ⟨answer, hl, hpods⟩ := ha.lists s.cluster hs
  cases answer with
  | error r =>
      exact Or.inl ⟨[.listed ns (.error r)], _, _, enforceRounds_unlisted o left round last
        (listPods_apply hl), rfl, ⟨hl, trivial⟩, rfl, .unlisted r⟩
  | ok pods =>
      obtain ⟨hmoderate, hmetadata⟩ := hpods pods rfl
      obtain ⟨v, hv, _, _⟩ := verdictOn_ok hmoderate hp
      cases hviolated : v.violated with
      | true => exact Or.inr ⟨pods, v, hl, hmoderate, hmetadata, hv, hviolated⟩
      | false =>
          exact Or.inl ⟨[.listed ns (.ok pods)], _, _, enforceRounds_compliant o left round last
            (listPods_apply hl) hv hviolated, rfl, ⟨hl, trivial⟩, rfl, .compliant hv hviolated⟩

section violated

variable {pods : List Pod} {v : Verdict}
  (hl : (ClusterCall.listPods ns).reply s.cluster = .ok pods) (hv : verdictOn p pods = .ok v)
  (hviolated : v.violated = true)

include hl hv hviolated

theorem follows_zero : Follows o ns p 0 round last s := by
  have hlist := listPods_apply (a := .ok pods) hl
  cases last with
  | none =>
      obtain ⟨t, e, hcluster, hmetrics⟩ := enforceRounds_exhausted o round hlist hv hviolated
      exact ⟨[.listed ns (.ok pods)], t, _, e, hcluster, ⟨hl, trivial⟩, hmetrics,
        .exhausted hv hviolated⟩
  | some r =>
      exact ⟨[.listed ns (.ok pods)], _, _, enforceRounds_stillViolated o round hlist hv hviolated,
        rfl, ⟨hl, trivial⟩, rfl, .stillViolated r hv hviolated⟩

variable {q : Pod} (hc : o.choose = selectVictim)
  (hselect : selectVictim pods v.reason = .ok (some q))

include hc hselect

theorem follows_dryRun (hdry : o.dryRun = true) : Follows o ns p (left + 1) round last s := by
  obtain ⟨t, e, hcluster, hmetrics⟩ := enforceRounds_dryRun o left round last
    (listPods_apply (a := .ok pods) hl) hv hviolated (by rw [hc, hselect]) hdry
  exact ⟨[.listed ns (.ok pods)], t, _, e, hcluster, ⟨hl, trivial⟩, hmetrics,
    .dryRun hv hviolated hdry⟩

theorem follows_evicted (ha : Amenable ns Kind) (hs : Kind s.cluster) (hdry : o.dryRun = false)
    (hq : q ∈ livePods pods) (hmetadata : q.metadata ≠ none)
    (next : ∀ {t : Site σ τ} last, Kind t.cluster → Follows o ns p left (round + 1) last t) :
    Follows o ns p (left + 1) round last s := by
  obtain ⟨m, hm⟩ := Option.ne_none_iff_exists'.mp hmetadata
  have hlisted := ha.afterList s.cluster hs
  obtain ⟨answer, hd⟩ := ha.deletes _ hlisted m.ns m.name
  have hanswer : DeleteAnswer q ((ClusterCall.listPods ns).after s.cluster)
      ((ClusterCall.deletePod m.ns m.name deleteGraceSeconds).after
        ((ClusterCall.listPods ns).after s.cluster))
      answer := ⟨m, hm, Prod.ext hd rfl⟩
  obtain ⟨t, e, hcluster, hmetrics⟩ := enforceRounds_evicted o left round last
    (listPods_apply (a := .ok pods) hl) hv hviolated (by rw [hc, hselect]) hdry hanswer
  have hkind : Kind t.cluster := by
    rw [hcluster]
    exact ha.afterDelete _ hlisted m.ns m.name
  obtain ⟨exchanges, t', result, e', hafter, hanswered, hmetrics', hcourse⟩ :=
    next (refusalLeft answer) hkind
  rw [hcluster] at hafter hanswered
  refine ⟨.listed ns (.ok pods) :: .deleted m.ns m.name answer :: exchanges, t', result,
    e.trans e', hafter, ⟨hl, hd, hanswered⟩, ?_,
    .evicted answer hv hviolated hdry hselect hq hm hcourse⟩
  rw [hmetrics', hmetrics]
  cases hg : gone answer with
  | true => simp [Exchange.isGone, hg]
  | false => simp [Exchange.isGone, hg]

end violated

/-- `enforceRounds` follows a course, by induction on the deletes that are left. -/
theorem enforceRounds_follows (ha : Amenable ns Kind) (hc : o.choose = selectVictim)
    (hp : p.Writable) (left round : Nat) (last : Option Refusal) {s : Site σ τ}
    (hs : Kind s.cluster) : Follows o ns p left round last s := by
  induction left generalizing round last s with
  | zero =>
      rcases follows_or_violated ha hp hs with h | ⟨pods, v, hl, _, _, hv, hviolated⟩
      · exact h
      · exact follows_zero hl hv hviolated
  | succ left ih =>
      rcases follows_or_violated ha hp hs with
        h | ⟨pods, v, hl, _, hmetadata, hv, hviolated⟩
      · exact h
      · obtain ⟨q, hq, hselect, _⟩ := selectVictim_ok hmetadata
          (livePods_of_violated hv hviolated) (Verdict.violated_iff.mp hviolated)
        cases hdry : o.dryRun with
        | true => exact follows_dryRun hl hv hviolated hc hselect hdry
        | false =>
            exact follows_evicted hl hv hviolated hc hselect ha hs hdry hq (hmetadata q hq)
              fun last ht => ih (round + 1) last ht

end clusters

/-! ### Courses on an oracle -/

section

variable {τ : Type} [TimeScale τ] (o : EnforcementOptions) (ns : Json) (p : Policy)

/-- The pods that a cluster will show can be evaluated, and the live ones have metadata. -/
def Oracle.Readable (c : Oracle) : Prop :=
  ∀ n pods, c.lists n = .ok pods → Moderate pods ∧ ∀ q ∈ livePods pods, q.metadata ≠ none

/-- An enforcement from some state takes a course. -/
def TakesCourse (left round : Nat) (last : Option Refusal) (s : Site Oracle τ) : Prop :=
  ∃ calls t result, enforceRounds o ns p left round last s = (result, t) ∧
    t.cluster.calls = s.cluster.calls ++ calls ∧
    t.metrics = (countDelete o ns)^[calls.countP Exchange.isGone] s.metrics ∧
    Course o ns p left last calls result

variable {o ns p}

theorem Oracle.amenable : Amenable ns Oracle.Readable where
  lists c hc := ⟨c.lists 0, rfl, hc 0⟩
  deletes c _ _ _ := ⟨c.deletes 0, rfl⟩
  afterList _ hc n := hc (n + 1)
  afterDelete _ hc _ _ := hc

theorem Oracle.listOutcome_inj {x y : Except Refusal (List Pod)}
    (h : listOutcome x = listOutcome y) : x = y := by
  cases x <;> cases y <;> simp_all [listOutcome]

theorem deleteOutcome_inj {x y : Option Refusal} (h : deleteOutcome x = deleteOutcome y) :
    x = y := by
  cases x <;> cases y <;> simp_all [deleteOutcome]

theorem Oracle.calls_afterExchanges {exchanges : List Exchange} {c : Oracle}
    (h : Answered c exchanges) : (afterExchanges exchanges c).calls = c.calls ++ exchanges := by
  induction exchanges generalizing c with
  | nil => exact (List.append_nil _).symm
  | cons e r ih =>
      obtain ⟨he, hr⟩ := h
      have noted : (e.call.after c).calls = c.calls ++ [e] := by
        cases e with
        | listed ns answer =>
            rw [← Oracle.listOutcome_inj he]
            rfl
        | deleted ns name answer =>
            rw [← deleteOutcome_inj he]
            rfl
      exact (ih hr).trans (by rw [noted, List.append_assoc, List.singleton_append])

/-- `enforceRounds` takes a course on an `Oracle`, which writes down its exchanges. -/
theorem enforceRounds_course (hc : o.choose = selectVictim) (hp : p.Writable) (left round : Nat)
    (last : Option Refusal) {s : Site Oracle τ} (hs : s.cluster.Readable) :
    TakesCourse o ns p left round last s := by
  obtain ⟨exchanges, t, result, e, hafter, hanswered, hmetrics, hcourse⟩ :=
    enforceRounds_follows (o := o) Oracle.amenable hc hp left round last hs
  refine ⟨exchanges, t, result, e, ?_, hmetrics, hcourse⟩
  rw [hafter]
  exact Oracle.calls_afterExchanges hanswered

end

/-! ### What a course may do -/

section

variable {o : EnforcementOptions} {ns : Json} {p : Policy} {left : Nat} {last : Option Refusal}
  {calls : List Exchange} {result : Except Fault Verdict}

theorem Course.deletes_le (h : Course o ns p left last calls result) :
    calls.countP Exchange.isDelete ≤ left := by
  induction h with
  | evicted answer _ _ _ _ _ _ _ ih => simpa [List.countP_cons, Exchange.isDelete] using ih
  | _ => simp [Exchange.isDelete]

/-- There is one listing more than there are deletes. -/
theorem Course.lists_eq (h : Course o ns p left last calls result) :
    calls.countP Exchange.isList = calls.countP Exchange.isDelete + 1 := by
  induction h with
  | evicted answer _ _ _ _ _ _ _ ih =>
      simpa [List.countP_cons, Exchange.isList, Exchange.isDelete] using ih
  | _ => simp [List.countP_cons, Exchange.isList, Exchange.isDelete]

theorem Course.dry (h : Course o ns p left last calls result) (hdry : o.dryRun = true) :
    calls.countP Exchange.isDelete = 0 := by
  cases h with
  | evicted answer _ _ hwet =>
      rw [hdry] at hwet
      exact absurd hwet (by decide)
  | _ => simp [Exchange.isDelete]

/-- A delete call for the victim of the listing right before it. -/
def Targeted (ns : Json) (p : Policy) (front : List Exchange) (podNs name : Option String) : Prop :=
  ∃ earlier pods v q m, front = earlier ++ [.listed ns (.ok pods)] ∧ verdictOn p pods = .ok v ∧
    v.violated = true ∧ selectVictim pods v.reason = .ok (some q) ∧ q ∈ pods ∧
    q.isTerminal = false ∧ q.metadata = some m ∧ m.ns = podNs ∧ m.name = name

theorem Course.targeted (h : Course o ns p left last calls result) {front back : List Exchange}
    {podNs name : Option String} {answer : Option Refusal}
    (hsplit : calls = front ++ .deleted podNs name answer :: back) :
    Targeted ns p front podNs name := by
  induction h generalizing front with
  | @evicted left last pods v q m calls result answer' hv hviolated hdry hselect hq hm _ ih =>
      match front, hsplit with
      | [_], hsplit =>
          simp only [List.cons_append, List.nil_append, List.cons.injEq, Exchange.deleted.injEq]
            at hsplit
          obtain ⟨rfl, ⟨hns, hname, _⟩, _⟩ := hsplit
          obtain ⟨hmem, hlive⟩ := mem_livePods.mp hq
          exact ⟨[], pods, v, q, m, rfl, hv, hviolated, hselect, hmem, hlive, hm, hns, hname⟩
      | x :: y :: front, hsplit =>
          simp only [List.cons_append, List.cons.injEq] at hsplit
          obtain ⟨rfl, rfl, hsplit⟩ := hsplit
          obtain ⟨earlier, pods', v', q', m', rfl, h⟩ := ih hsplit
          exact ⟨_ :: _ :: earlier, pods', v', q', m', rfl, h⟩
  | _ => cases front <;> simp at hsplit

theorem Course.returned (h : Course o ns p left last calls result) {v : Verdict}
    (hr : result = .ok v) :
    ∃ earlier pods, calls = earlier ++ [.listed ns (.ok pods)] ∧ verdictOn p pods = .ok v := by
  induction h with
  | unlisted => exact nomatch hr
  | stillViolated => exact nomatch hr
  | @compliant _ _ pods _ hv _ =>
      rw [← Except.ok.inj hr]
      exact ⟨[], pods, rfl, hv⟩
  | @dryRun _ _ pods _ hv _ _ =>
      rw [← Except.ok.inj hr]
      exact ⟨[], pods, rfl, hv⟩
  | @exhausted pods _ hv _ =>
      rw [← Except.ok.inj hr]
      exact ⟨[], pods, rfl, hv⟩
  | evicted answer _ _ _ _ _ _ _ ih =>
      obtain ⟨earlier, pods, rfl, hv⟩ := ih hr
      exact ⟨_ :: _ :: earlier, pods, rfl, hv⟩

theorem Course.fault_spec (h : Course o ns p left last calls result) {f : Fault}
    (hr : result = .error f) : f.kind = .enforcement ∧ f.ns? = some ns := by
  induction h with
  | unlisted r =>
      rw [← Except.error.inj hr]
      exact ⟨rfl, rfl⟩
  | stillViolated r =>
      rw [← Except.error.inj hr]
      exact ⟨rfl, rfl⟩
  | evicted _ _ _ _ _ _ _ _ ih => exact ih hr
  | compliant => exact nomatch hr
  | dryRun => exact nomatch hr
  | exhausted => exact nomatch hr

/-- The last listing shows a violation after a delete that left the pod there. -/
def StillViolated (ns : Json) (p : Policy) (calls : List Exchange) : Prop :=
  ∃ earlier podNs name r pods v,
    calls = earlier ++ [.deleted podNs name (some r), .listed ns (.ok pods)] ∧
    r.isMissing = false ∧ verdictOn p pods = .ok v ∧ v.violated = true

/-- What fails an enforcement with so many deletes left: a refused listing, or a violation with no
delete left, if the last one was refused. -/
def Failing (ns : Json) (p : Policy) (left : Nat) (last : Option Refusal) (calls : List Exchange) :
    Prop :=
  (∃ r, .listed ns (.error r) ∈ calls) ∨ calls.countP Exchange.isDelete = left ∧
    ((∃ r pods v, last = some r ∧ calls = [.listed ns (.ok pods)] ∧ verdictOn p pods = .ok v ∧
      v.violated = true) ∨ StillViolated ns p calls)

theorem not_stillViolated_singleton (x : Exchange) : ¬ StillViolated ns p [x] := by
  rintro ⟨earlier, podNs, name, r, pods, v, h, _⟩
  have := congrArg List.length h
  simp at this

theorem refusalLeft_eq_some {answer : Option Refusal} {r : Refusal} :
    refusalLeft answer = some r ↔ answer = some r ∧ r.isMissing = false := by
  unfold refusalLeft
  constructor
  · intro h
    split at h
    · exact absurd h (by simp)
    · next hg =>
        rw [h] at hg
        exact ⟨h, by simpa [gone] using hg⟩
  · rintro ⟨rfl, h⟩
    rw [if_neg (by simp [gone, h])]

theorem failing_evicted_iff (pods : List Pod) (podNs name : Option String)
    (answer : Option Refusal) :
    Failing ns p (left + 1) last
      (.listed ns (.ok pods) :: .deleted podNs name answer :: calls) ↔
      Failing ns p left (refusalLeft answer) calls := by
  constructor
  · rintro (⟨r, hmem⟩ | ⟨hcount, ⟨_, _, _, _, hcalls, _⟩ |
      ⟨earlier, podNs', name', r, pods', v, hcalls, hmissing, h⟩⟩)
    · exact Or.inl ⟨r, by simpa using hmem⟩
    · exact absurd (congrArg List.length hcalls) (by simp)
    · refine Or.inr ⟨by simpa [List.countP_cons, Exchange.isDelete] using hcount, ?_⟩
      match earlier, hcalls with
      | [], hcalls => simp at hcalls
      | [_], hcalls =>
          simp only [List.cons_append, List.nil_append, List.cons.injEq, Exchange.deleted.injEq]
            at hcalls
          obtain ⟨_, ⟨_, _, rfl⟩, htail⟩ := hcalls
          exact Or.inl ⟨r, pods', v, refusalLeft_eq_some.mpr ⟨rfl, hmissing⟩, htail, h⟩
      | _ :: _ :: earlier, hcalls =>
          simp only [List.cons_append, List.cons.injEq] at hcalls
          exact Or.inr ⟨earlier, podNs', name', r, pods', v, hcalls.2.2, hmissing, h⟩
  · rintro (⟨r, hmem⟩ | ⟨hcount, hend⟩)
    · exact Or.inl ⟨r, List.mem_cons_of_mem _ (List.mem_cons_of_mem _ hmem)⟩
    · refine Or.inr ⟨by simpa [List.countP_cons, Exchange.isDelete] using hcount, Or.inr ?_⟩
      rcases hend with ⟨r, pods', v, hleft, rfl, h⟩ |
        ⟨earlier, podNs', name', r, pods', v, rfl, h⟩
      · obtain ⟨rfl, hmissing⟩ := refusalLeft_eq_some.mp hleft
        exact ⟨[_], podNs, name, r, pods', v, rfl, hmissing, h⟩
      · exact ⟨_ :: _ :: earlier, podNs', name', r, pods', v, rfl, h⟩

/-- A course ends in a fault exactly if it is `Failing`. -/
theorem Course.error_iff (h : Course o ns p left last calls result) :
    (∃ f, result = .error f) ↔ Failing ns p left last calls := by
  induction h with
  | unlisted r => exact iff_of_true ⟨_, rfl⟩ (Or.inl ⟨r, List.mem_singleton_self _⟩)
  | @stillViolated pods v r hv hviolated =>
      exact iff_of_true ⟨_, rfl⟩ (Or.inr ⟨rfl, Or.inl ⟨r, pods, v, rfl, rfl, hv, hviolated⟩⟩)
  | @compliant _ _ pods v hv hok =>
      refine iff_of_false (by simp) ?_
      rintro (⟨r, hmem⟩ | ⟨_, ⟨r, pods', v', _, hcalls, hv', hviolated⟩ | hend⟩)
      · simp at hmem
      · obtain rfl : pods = pods' := by simpa using hcalls
        obtain rfl : v = v' := Except.ok.inj (hv.symm.trans hv')
        rw [hok] at hviolated
        exact absurd hviolated (by decide)
      · exact not_stillViolated_singleton _ hend
  | dryRun hv hviolated _ =>
      refine iff_of_false (by simp) ?_
      rintro (⟨r, hmem⟩ | ⟨hcount, _⟩)
      · simp at hmem
      · simp [Exchange.isDelete] at hcount
  | exhausted hv hviolated =>
      refine iff_of_false (by simp) ?_
      rintro (⟨r, hmem⟩ | ⟨_, ⟨r, _, _, hlast, _⟩ | hend⟩)
      · simp at hmem
      · exact absurd hlast (by simp)
      · exact not_stillViolated_singleton _ hend
  | evicted answer _ _ _ _ _ _ _ ih => exact ih.trans (failing_evicted_iff _ _ _ answer).symm

/-- What an enforcement with so many deletes at most may do. -/
structure Lawful (o : EnforcementOptions) (ns : Json) (p : Policy) (cap : Nat)
    (calls : List Exchange) (result : Except Fault Verdict) : Prop where
  deletes : calls.countP Exchange.isDelete ≤ cap
  lists : calls.countP Exchange.isList ≤ cap + 1
  /-- A dry run deletes nothing. -/
  dry : o.dryRun = true → calls.countP Exchange.isDelete = 0
  /-- A delete follows a listing with a violation, and takes its victim. -/
  targets : ∀ front podNs name answer back, calls = front ++ .deleted podNs name answer :: back →
    Targeted ns p front podNs name
  /-- A verdict that is returned is that on the last listing. -/
  returns : ∀ v, result = .ok v → ∃ earlier pods,
    calls = earlier ++ [.listed ns (.ok pods)] ∧ verdictOn p pods = .ok v
  /-- It fails after a refused listing, and if a refused delete is the last one of all that are
  allowed and leaves a violation. -/
  fails : (∃ f, result = .error f) ↔ (∃ r, .listed ns (.error r) ∈ calls) ∨
    calls.countP Exchange.isDelete = cap ∧ StillViolated ns p calls
  kind : ∀ f, result = .error f → f.kind = .enforcement

theorem Course.lawful {cap : Nat} (h : Course o ns p cap none calls result) :
    Lawful o ns p cap calls result := by
  have hlists : calls.countP Exchange.isList ≤ cap + 1 := by
    have := h.lists_eq
    have := h.deletes_le
    omega
  have hfails : (∃ f, result = .error f) ↔ (∃ r, .listed ns (.error r) ∈ calls) ∨
      calls.countP Exchange.isDelete = cap ∧ StillViolated ns p calls := by
    rw [h.error_iff, Failing]
    simp
  exact ⟨h.deletes_le, hlists, h.dry, fun _ _ _ _ _ => h.targeted, fun _ => h.returned, hfails,
    fun _ hr => (h.fault_spec hr).1⟩

end

/-! ### Whole enforcements -/

/-- The series that counts the deletes in a namespace. -/
def deleteSeries (ns : Json) : Series := ⟨.actions, ["delete", ns.display]⟩

theorem value_countDelete (o : EnforcementOptions) (ns : Json) (n : Nat) (m : Metrics) :
    ((countDelete o ns)^[n] m).value (deleteSeries ns) =
      m.value (deleteSeries ns) + if o.counted then n else 0 := by
  induction n generalizing m with
  | zero => simp
  | succ n ih =>
      rw [Function.iterate_succ_apply, ih, countDelete]
      cases o.counted with
      | true =>
          rw [if_pos rfl, if_pos rfl, if_pos rfl, Metrics.acted, ← deleteSeries,
            Metrics.value_count, if_pos rfl]
          omega
      | false => simp

/-- **An enforcement is safe on any cluster.** Whatever listings and deletes are answered, it does
what `Lawful` says, and the counter of deletes grows by the number of pods that were gone after
their delete call. -/
theorem enforce_lawful {τ : Type} [TimeScale τ] {o : EnforcementOptions} {p : Policy}
    {s : Site Oracle τ} (ns : Json) (hc : o.choose = selectVictim) (hp : p.Writable)
    (hs : s.cluster.Readable) (hcalls : s.cluster.calls = []) :
    ∃ result t, enforce o ns p s = (result, t) ∧
      Lawful o ns p o.cap.toNat t.cluster.calls result ∧
      t.metrics.value (deleteSeries ns) = s.metrics.value (deleteSeries ns) +
        if o.counted then t.cluster.calls.countP Exchange.isGone else 0 := by
  obtain ⟨calls, t, result, e, hall, hmetrics, hcourse⟩ :=
    enforceRounds_course hc hp o.cap.toNat 1 none hs
  rw [hcalls, List.nil_append] at hall
  refine ⟨result, t, e, ?_, ?_⟩
  · rw [hall]
    exact hcourse.lawful
  · rw [hall, hmetrics, value_countDelete]

/-- A policy that allows one pod. -/
def onePod : Policy := ⟨.str "quota", .str "team-a", 1, 0, 0⟩

theorem onePod_writable : onePod.Writable :=
  Policy.writable_of_amounts (Or.inr (Or.inl rfl)) (Or.inr (Or.inl rfl))

/-- Two pods that request nothing. -/
def twoPods : List Pod :=
  [⟨some ⟨some "web", some "team-a", none, none⟩, none, none⟩,
    ⟨some ⟨some "worker", some "team-a", none, none⟩, none, none⟩]

/-- Both pods are shown again and again, and no delete is allowed. -/
def stubborn : Oracle := ⟨fun _ => .ok twoPods, fun _ => some ⟨.int 403, .str "Forbidden"⟩, []⟩

theorem stubborn_readable : stubborn.Readable := by
  intro n pods h
  obtain rfl : twoPods = pods := Except.ok.inj h
  refine ⟨moderate_of_requests (k := 0) (by decide) (by decide) ?_ (by decide +kernel), by decide⟩
  exact Nat.lt_of_lt_of_le (m := tenTo 1) (by decide) (tenTo_le_iff.mpr (by decide))

/-- Two deletes are tried and refused: the enforcement fails, and nothing is counted. -/
theorem enforce_lawful_stubborn :
    let o : EnforcementOptions := ⟨false, 2, true, selectVictim⟩
    let s : Site Oracle Float := ⟨stubborn, 0, [], .zero⟩
    onePod.Writable ∧ stubborn.Readable ∧ ∃ result t,
      enforce o (.str "team-a") onePod s = (result, t) ∧
      Lawful o (.str "team-a") onePod 2 t.cluster.calls result ∧
      t.metrics.value (deleteSeries (.str "team-a")) = 0 ∧ result.toOption = none := by
  intro o s
  obtain ⟨result, t, e, hlawful, hcount⟩ := enforce_lawful (o := o) (s := s) (.str "team-a") rfl
    onePod_writable stubborn_readable rfl
  have hgone : (enforce o (.str "team-a") onePod s).2.cluster.calls.countP Exchange.isGone = 0 := by
    decide +kernel
  have hfail : (enforce o (.str "team-a") onePod s).1.toOption = none := by decide +kernel
  rw [e] at hgone hfail
  refine ⟨onePod_writable, stubborn_readable, result, t, e, hlawful, ?_, hfail⟩
  rw [hcount, hgone]
  rfl

end QuotaWarden
