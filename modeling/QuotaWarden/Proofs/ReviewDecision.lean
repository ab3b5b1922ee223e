import QuotaWarden.Proofs.CacheReads
import QuotaWarden.Proofs.CandidateDecision
import QuotaWarden.Proofs.RequestCalls
import QuotaWarden.Proofs.SyncOutcomes
import QuotaWarden.Proofs.UnitTexts

/-! # The decision on a review

A review is answered as its conditions say: the pod in it is refused exactly if it is to be made, it
can be read, a policy governs its namespace, the pods there can be listed, and with it they exceed a
limit.

* `CreatesPod` is a request to make a pod; what is not is let in (`ReviewOf.reviewRequest_other`).
* `Projects` is the usage that a review leads to. With `Weighable` amounts no review is stuck
  (`Weighable.not_stuck`), and what it meets decides whether it is refused (`Weighable.of_refused`,
  `Weighable.of_letIn`).

`validate_decides` puts them together; `validate_unanswered` are reviews that are not answered. -/

namespace QuotaWarden

open Number

variable {σ τ : Type} [ClusterApi σ]

/-! ### The policy of a namespace -/

omit [ClusterApi σ] in
/-- `governingPolicy?` finds the policy that `Governs`, or none where `Ungoverned` holds. -/
theorem governingPolicy?_cases {P : ApiObject → Prop} {c : WatchCache} {ns : String}
    (h : c.index.Textual P) (hr : Operator.Readable ns c.index) (s : Site σ τ) :
    (Operator.Ungoverned ns c ∧ governingPolicy? c (.str ns) s = (.ok none, s)) ∨
      ∃ name p t, Operator.Governs ns name p c ∧
        governingPolicy? c (.str ns) s = (.ok (some p), t) ∧ s.Journaled t := by
  unfold governingPolicy?
  rw [Act.bind_apply, Act.lift_apply]
  cases hs : c.synced with
  | false =>
      rw [(WatchCache.reads_of_unsynced hs _).2.2]
      refine Or.inl ⟨fun synced => ?_, rfl⟩
      rw [hs] at synced
      cases synced
  | true =>
      obtain ⟨objects, hread, hfirst, _, _⟩ := h.inNamespace_sorted ns
      have first : c.first? (.str ns) = .ok objects.head? := by
        simpa [WatchCache.first?, hs, Key.ofJson, bind, Except.bind] using hfirst
      rw [first]
      rcases h.inNamespace_cases ns with ⟨e, hnone⟩ | ⟨x, r, name, e, isFirst⟩
      · obtain rfl := Except.ok.inj (hread.symm.trans e)
        exact Or.inl ⟨fun _ => hnone, rfl⟩
      · obtain rfl := Except.ok.inj (hread.symm.trans e)
        obtain ⟨p, hp⟩ := hr name x isFirst.1
        obtain ⟨t, ht, journaled⟩ := readWithWarnings_ok hp s
        refine Or.inr ⟨name, p, t, ⟨hs, x, isFirst, hp⟩, ?_, journaled⟩
        change ((readWithWarnings x >>= fun p => pure (some p)) s) = _
        rw [Act.bind_of_ok ht]
        rfl

omit [ClusterApi σ] in
theorem governingPolicy?_of_governs {P : ApiObject → Prop} {c : WatchCache} {ns name : String}
    {p : Policy} (h : c.index.Textual P) (hr : Operator.Readable ns c.index)
    (hg : Operator.Governs ns name p c) (s : Site σ τ) :
    ∃ notes, governingPolicy? c (.str ns) s = (.ok (some p), { s with notes }) := by
  rcases governingPolicy?_cases h hr s with ⟨none, _⟩ | ⟨_, q, t, governs, e, notes, rfl⟩
  · exact absurd none hg.not_ungoverned
  · obtain ⟨_, rfl⟩ := hg.unique governs
    exact ⟨notes, e⟩

/-! ### Reviews -/

/-- A review with the fields of its request. The kind is an object, or it is not given. -/
structure ReviewOf (review request : List (String × Json)) (version uid ns : String) : Prop where
  versioned : field? "apiVersion" review = some (.str version)
  requested : field? "request" review = some (.obj request)
  identified : field? "uid" request = some (.str uid)
  placed : field? "namespace" request = some (.str ns)
  kinded : Json.ofOption (field? "kind" request) = .null ∨
    ∃ kind, field? "kind" request = some (.obj kind)
  sendable : Text.hasSurrogate version = false ∧ Text.hasSurrogate uid = false

/-- A request to make a pod. -/
structure CreatesPod (request : List (String × Json)) : Prop where
  aboutPod : ∃ kind, field? "kind" request = some (.obj kind) ∧
    field? "kind" kind = some (.str "Pod")
  creates : field? "operation" request = some (.str "CREATE")

theorem Json.eq_of_same_str {v : Json} {s : String} (h : v.same (.str s) = true) : v = .str s := by
  cases v with
  | str t => simpa using h
  | _ => simp [Json.same, Json.number?] at h

theorem field?_of_same {name s : String} {fields : List (String × Json)}
    (h : (Json.ofOption (field? name fields)).same (.str s) = true) :
    field? name fields = some (.str s) := by
  have given := Json.eq_of_same_str h
  cases hf : field? name fields with
  | none =>
      rw [hf] at given
      cases given
  | some v =>
      rw [hf] at given
      exact congrArg some given

variable {review request : List (String × Json)} {version uid ns : String} {o : Operator σ τ}

namespace ReviewOf

variable (h : ReviewOf review request version uid ns)

include h

theorem podReview (hc : CreatesPod request) : PodReview review request version uid ns :=
  ⟨h.versioned, h.requested, h.identified, h.placed, hc.aboutPod, hc.creates, h.sendable⟩

/-- A request that does not `CreatesPod` is allowed. -/
theorem reviewRequest_other (hc : ¬ CreatesPod request) (policies : WatchCache) (s : Site σ τ) :
    reviewRequest policies review (.obj request) s =
      (.ok (allowReview review (.str uid)), s) := by
  obtain ⟨kind, hkind, hgiven⟩ : ∃ kind,
      givenMapping (Json.ofOption (field? "kind" request)) = .ok kind ∧
        (field? "kind" kind = some (.str "Pod") → field? "kind" request = some (.obj kind)) := by
    rcases h.kinded with hnone | ⟨kind, hkind⟩
    · rw [hnone]
      exact ⟨[], rfl, fun hname => nomatch hname⟩
    · rw [hkind]
      refine ⟨kind, ?_, fun _ => rfl⟩
      cases kind <;> rfl
  have other : (!((Json.ofOption (field? "kind" kind)).same (.str "Pod") &&
      (Json.ofOption (field? "operation" request)).same (.str "CREATE"))) = true := by
    rw [Bool.not_eq_true', Bool.eq_false_iff]
    intro both
    rw [Bool.and_eq_true] at both
    have named := field?_of_same both.1
    exact hc ⟨⟨kind, hgiven named, named⟩, field?_of_same both.2⟩
  unfold reviewRequest
  refine (Act.bind_of_ok (x := request) rfl).trans ?_
  refine (Act.bind_of_ok (x := kind) (congrArg (·, s) hkind)).trans ?_
  rw [other, if_pos rfl, h.identified]
  rfl

end ReviewOf

/-- The answer to a review: its version comes back, and its identifier with the decision. -/
def answerTo (version uid : String) (decision : List (String × Json)) : HttpResponse :=
  ⟨200, .json (.obj [("apiVersion", (Json.str version).orElse (.str reviewVersion)),
    ("kind", .str "AdmissionReview"), ("response", .obj (("uid", .str uid) :: decision))])⟩

/-- The decision that lets a pod in. -/
def allowance : List (String × Json) := [("allowed", .bool true)]

/-- The decision that refuses a pod, and why. -/
def denial (message : String) : List (String × Json) :=
  [("allowed", .bool false), ("status", .obj [("code", .int 403), ("message", .str message)])]

theorem ReviewOf.answer_allowed (h : ReviewOf review request version uid ns) (text : String) :
    (⟨200, .json (reviewAnswer review (.str uid) (.bool true) (.str text))⟩ : HttpResponse) =
      answerTo version uid allowance := by
  unfold reviewAnswer
  rw [h.versioned]
  rfl

theorem ReviewOf.answer_denied (h : ReviewOf review request version uid ns) (text : String) :
    (⟨200, .json (reviewAnswer review (.str uid) (.bool false) (.str text))⟩ : HttpResponse) =
      answerTo version uid (denial text) := by
  unfold reviewAnswer
  rw [h.versioned]
  rfl

/-! ### What a review leads to -/

/-- A review asks for a pod that can be read, a policy governs its namespace, and the pods there can
be listed: with the pod they use so much. -/
structure Projects (o : Operator σ τ) (request : List (String × Json)) (ns : String) (p : Policy)
    (u : Usage) : Prop where
  creates : CreatesPod request
  governed : ∃ name, Operator.Governs ns name p o.policies
  projected : ∃ pod pods c, Pod.ofJson (reviewedPod request) = .ok pod ∧
    ClusterApi.listPods (.str ns) o.site.cluster = (.ok pods, c) ∧
    Usage.projected pods pod = .ok u

/-- The limits of the policies of a namespace can be written, and what its pods and the candidate
request is below `10 ^ digitLimit`, one by one and all together; what cannot be read of the
candidate does not matter. -/
structure Weighable (o : Operator σ τ) (request : List (String × Json)) (ns : String) : Prop where
  limits : ∀ name x, o.policies.index.get? ⟨.text ns, .text name⟩ = some x →
    ∃ p, x.policy? = .ok p ∧ p.Writable
  listed : ∀ pods c, ClusterApi.listPods (.str ns) o.site.cluster = (.ok pods, c) →
    ∀ q ∈ livePods pods, ∀ c ∈ q.containers, c.RequestsBelow digitLimit
  candidate : ∀ items, listedContainers (reviewedPod request) = .ok items → ∀ item ∈ items, ∀ c,
    Container.ofJson item = .ok c → c.ReadsBelow digitLimit
  total : ∀ p u, Projects o request ns p u → u.pods < tenTo digitLimit ∧ u.toAmounts.Moderate

namespace Weighable

variable (h : Weighable o request ns)

include h

theorem readable : Operator.Readable ns o.policies.index := fun name x hx =>
  (h.limits name x hx).imp fun _ => And.left

theorem decided {name : String} {p : Policy} {pod : Pod} {pods : List Pod} {c : σ}
    (creates : CreatesPod request) (governs : Operator.Governs ns name p o.policies)
    (read : Pod.ofJson (reviewedPod request) = .ok pod)
    (listed : ClusterApi.listPods (.str ns) o.site.cluster = (.ok pods, c)) :
    ∃ u d, Usage.projected pods pod = .ok u ∧ Projects o request ns p u ∧
      decisionOn p pods pod = .ok d ∧
      (d.allowed = true ∧ (∀ r, ¬ u.Exceeds p r) ∨
        d.allowed = false ∧ ∃ r, u.FirstExceeded p r ∧ u.DenialText p r d.message) := by
  have moderate := Pod.ofJson_moderate (by decide) (by decide) h.candidate
  rw [read] at moderate
  obtain ⟨u, hu, hsum, hpods⟩ := Usage.projected_ok (h.listed pods c listed) moderate
  have projects : Projects o request ns p u :=
    ⟨creates, ⟨name, governs⟩, pod, pods, c, read, listed, hu⟩
  obtain ⟨hcount, hcpu, hmemory⟩ := h.total p u projects
  obtain ⟨_, x, hfirst, hp⟩ := governs
  obtain ⟨p', hp', writable⟩ := h.limits name x hfirst.1
  obtain rfl := Except.ok.inj (hp'.symm.trans hp)
  obtain ⟨d, hd, outcome⟩ := Usage.decide_of_writable (u := u) (by omega)
    (hsum.cpu.rounded.writable hcpu) (hsum.memory.rounded.writable hmemory) writable
  refine ⟨u, d, hu, projects, ?_, outcome⟩
  rw [decisionOn, hu]
  exact hd

theorem not_stuck {P : ApiObject → Prop} (keyed : o.policies.index.Textual P)
    (creates : CreatesPod request) :
    ¬ Stuck o.policies (.str ns) (reviewedPod request) o.site := by
  intro stuck
  cases stuck with
  | @reading signal hp =>
      have moderate := Pod.ofJson_moderate (by decide) (by decide) h.candidate
      rw [hp] at moderate
      cases signal <;> cases moderate
  | governing _ hg =>
      rcases governingPolicy?_cases keyed h.readable o.site with ⟨_, e⟩ | ⟨_, _, _, _, e, _⟩
      · cases hg.symm.trans e
      · cases hg.symm.trans e
  | deciding hp hg hl hd =>
      rcases governingPolicy?_cases keyed h.readable o.site with
        ⟨_, e⟩ | ⟨_, _, _, governs, e, notes, ht⟩
      · cases hg.symm.trans e
      · cases hg.symm.trans e
        rw [ht] at hl
        obtain ⟨_, _, _, _, decided, _⟩ := h.decided creates governs hp hl
        cases hd.symm.trans decided

theorem of_refused {P : ApiObject → Prop} (keyed : o.policies.index.Textual P)
    (creates : CreatesPod request) {message : String}
    (refused : Refused o.policies (.str ns) (reviewedPod request) o.site message) :
    ∃ p u r text, Projects o request ns p u ∧ u.FirstExceeded p r ∧ u.DenialText p r text ∧
      message = "Pod denied by QuotaPolicy: " ++ text := by
  cases refused with
  | above hp hg hl hd ha =>
      rcases governingPolicy?_cases keyed h.readable o.site with
        ⟨_, e⟩ | ⟨_, _, _, governs, e, notes, ht⟩
      · cases hg.symm.trans e
      · cases hg.symm.trans e
        rw [ht] at hl
        obtain ⟨u, d, _, projects, decided, outcome⟩ := h.decided creates governs hp hl
        obtain rfl := Except.ok.inj (hd.symm.trans decided)
        rcases outcome with ⟨allowed, _⟩ | ⟨_, r, first, text⟩
        · rw [ha] at allowed
          cases allowed
        · exact ⟨_, u, r, _, projects, first, text, rfl⟩

theorem of_letIn {P : ApiObject → Prop} (keyed : o.policies.index.Textual P)
    (letIn : LetIn o.policies (.str ns) (reviewedPod request) o.site) {p : Policy} {u : Usage}
    (projects : Projects o request ns p u) (r : Reason) : ¬ u.Exceeds p r := by
  obtain ⟨creates, ⟨name, governs⟩, pod, pods, c, read, listed, projected⟩ := projects
  obtain ⟨notes, governing⟩ := governingPolicy?_of_governs keyed h.readable governs o.site
  cases letIn with
  | undecodable hp _ => cases hp.symm.trans read
  | ungoverned _ hg => cases hg.symm.trans governing
  | unlisted _ hg hl =>
      cases hg.symm.trans governing
      cases hl.symm.trans listed
  | within hp hg hl hd ha =>
      cases hp.symm.trans read
      cases hg.symm.trans governing
      cases hl.symm.trans listed
      obtain ⟨_, d, hu, _, decided, outcome⟩ := h.decided creates governs hp hl
      obtain rfl := Except.ok.inj (hu.symm.trans projected)
      obtain rfl := Except.ok.inj (hd.symm.trans decided)
      rcases outcome with ⟨_, within⟩ | ⟨denied, _⟩
      · exact within r
      · rw [ha] at denied
        cases denied

end Weighable

/-! ### The decision -/

/-- **The decision on a review.** Where amounts are moderate, a review that can be read is answered
with its version and its identifier. If it asks for a pod that can be read, a policy governs the
namespace, the pods there can be listed and some limit is exceeded with the pod, the answer refuses
the pod with the words for the first limit that is; else it lets it in. Requests list pods at most,
and so change none. -/
theorem validate_decides {body : List UInt8} (h : ReviewOf review request version uid ns)
    (readable : Json.readBytes bodyLimits body = .ok (.obj review))
    (keyed : o.policies.index.Textual ApiObject.HasTexts) (amounts : Weighable o request ns) :
    let response := reviewResponse body o
    let denied := ∃ p u, Projects o request ns p u ∧ ∃ r, u.Exceeds p r
    (denied → ∃ p u r text, Projects o request ns p u ∧ u.FirstExceeded p r ∧
      u.DenialText p r text ∧
      response = answerTo version uid (denial ("Pod denied by QuotaPolicy: " ++ text))) ∧
    (¬ denied → response = answerTo version uid allowance) ∧
    ∀ app r, ListsOnly o.site.cluster (respond app r o).2.site.cluster ∧
      ∀ (views : ClusterViews σ) podNs name,
        views.pod podNs name (respond app r o).2.site.cluster =
          views.pod podNs name o.site.cluster := by
  intro response denied
  have decision : (∃ p u r text, Projects o request ns p u ∧ u.FirstExceeded p r ∧
      u.DenialText p r text ∧
      response = answerTo version uid (denial ("Pod denied by QuotaPolicy: " ++ text))) ∨
      ¬ denied ∧ response = answerTo version uid allowance := by
    by_cases creates : CreatesPod request
    · have posted := h.podReview creates
      rcases stuck_or_refused_or_letIn o.policies (.str ns) (reviewedPod request) o.site with
        stuck | ⟨message, refused⟩ | letIn
      · exact absurd stuck (amounts.not_stuck keyed creates)
      · obtain ⟨p, u, r, text, projects, first, words, rfl⟩ :=
          amounts.of_refused keyed creates refused
        refine Or.inl ⟨p, u, r, text, projects, first, words, ?_⟩
        exact (posted.reviewResponse_refused readable refused).trans (h.answer_denied _)
      · refine Or.inr ⟨?_, (posted.reviewResponse_letIn readable letIn).trans (h.answer_allowed _)⟩
        rintro ⟨p, u, projects, r, above⟩
        exact amounts.of_letIn keyed letIn projects r above
    · refine Or.inr ⟨fun ⟨_, _, projects, _⟩ => creates projects.creates, ?_⟩
      have given := requestOf_given h.requested h.identified
      have answered := reviewResponse_of_request readable given o
      rw [h.reviewRequest_other creates] at answered
      refine answered.trans ((sendJson_answer h.versioned h.sendable.1 h.sendable.2 ?_ true).trans
        (h.answer_allowed ""))
      decide +kernel
  refine ⟨fun hd => ?_, fun hd => ?_, fun app r => ?_⟩
  · exact decision.resolve_right fun other => other.1 hd
  · rcases decision with ⟨p, u, r, _, projects, first, _⟩ | ⟨_, answered⟩
    · exact absurd ⟨p, u, projects, r, first.1⟩ hd
    · exact answered
  · have lists := respond_listsOnly app r o
    exact ⟨lists, fun views podNs name => lists.pod views podNs name⟩

/-! ### One policy, one pod -/

/-- A policy that limits the processor time. -/
def cpuLimit (text : String) : ApiObject :=
  .untyped (.obj [("metadata", .obj [("name", .str "quota"), ("namespace", .str "team-a")]),
    ("spec", .obj [("maxCPU", .str text)])])

/-- What such a policy reads as. -/
def cpuPolicy (x : Decimal) : Policy := ⟨.str "quota", .str "team-a", 0, x, 0⟩

/-- An operator without pods that has cached such a policy. -/
def cpuLimited (text : String) : Operator InMemory Float :=
  { Operator.start InMemory.empty with
    policies :=
      ⟨"policies", Index.empty.store ⟨.text "team-a", .text "quota"⟩ (cpuLimit text), true⟩ }

/-- The pod that the review `webReview` asks for. -/
def webPod (cpu : String) : Pod :=
  ⟨some ⟨some "web", none, none, none⟩, some [⟨"c", some [("cpu", cpu)]⟩], some ⟨none⟩⟩

section

variable {text cpu name : String} {x : Decimal}

theorem cpuLimit_policy (h : Quantity.read text = .ok x) :
    (cpuLimit text).policy? = .ok (cpuPolicy x) := by
  simp [cpuLimit, cpuPolicy, ApiObject.policy?, Policy.ofJson, mapping, Dictionary.get?,
    Json.ofOption, Json.orElse, Json.truthy, readMaxPods, readLimit, Quantity.ofJson, h,
    Act.bind_apply]

theorem cpuLimited_textual : (cpuLimited text).policies.index.Textual ApiObject.HasTexts := by
  have hat : (cpuLimit text).IsAt "team-a" "quota" := ⟨.str "", rfl⟩
  exact Index.store_textual Index.empty_textual ⟨_, _, hat⟩ hat

theorem cpuLimited_get? {x : ApiObject}
    (h : (cpuLimited text).policies.index.get? ⟨.text "team-a", .text name⟩ = some x) :
    name = "quota" ∧ x = cpuLimit text := by
  replace h := (WatchCache.get?_store _ _ _ _).symm.trans h
  split at h
  · next hk =>
      rw [ObjectKey.beq_iff, Key.text_beq_iff, Key.text_beq_iff] at hk
      exact ⟨(Key.text.inj hk.2).symm, (Option.some.inj h).symm⟩
  · cases h

theorem cpuLimited_governs (h : Quantity.read text = .ok x) :
    Operator.Governs "team-a" "quota" (cpuPolicy x) (cpuLimited text).policies := by
  refine ⟨rfl, cpuLimit text, ⟨?_, fun other hother => ?_⟩, cpuLimit_policy h⟩
  · exact (WatchCache.get?_store _ _ _ _).trans (if_pos (BEq.refl _))
  · obtain ⟨x, hx⟩ := Option.ne_none_iff_exists'.mp hother
    rw [(cpuLimited_get? hx).1]

theorem cpuLimited_readable (h : Quantity.read text = .ok x) :
    Operator.Readable "team-a" (cpuLimited text).policies.index := by
  intro name object hobject
  rw [(cpuLimited_get? hobject).2]
  exact ⟨_, cpuLimit_policy h⟩

theorem webPod_read (cpu : String) : Pod.ofJson (reviewedPod (webRequest cpu)) =
    (webPod cpu).requests.map fun _ => webPod cpu := by
  change (do let _ ← (webPod cpu).requests; return webPod cpu) = _
  cases (webPod cpu).requests <;> rfl

theorem webPod_projects {u : Usage} (h : Quantity.read text = .ok x) {a : Amounts}
    (requests : (webPod cpu).requests = .ok a) (used : Usage.projected [] (webPod cpu) = .ok u) :
    Projects (cpuLimited text) (webRequest cpu) "team-a" (cpuPolicy x) u where
  creates := ⟨⟨_, rfl, rfl⟩, rfl⟩
  governed := ⟨_, cpuLimited_governs h⟩
  projected := ⟨webPod cpu, [], _, by rw [webPod_read, requests]; rfl, rfl, used⟩

end

/-- A pod with two cores under a policy of one core is refused. -/
theorem validate_decides_two_cores :
    let o := cpuLimited "1"
    ReviewOf (webReview "2") (webRequest "2") reviewVersion "req-1" "team-a" ∧
      Json.readBytes bodyLimits (webBody "2") = .ok (.obj (webReview "2")) ∧
      o.policies.index.Textual ApiObject.HasTexts ∧ Weighable o (webRequest "2") "team-a" ∧
      ∃ p u r text, Projects o (webRequest "2") "team-a" p u ∧ u.FirstExceeded p r ∧
        u.DenialText p r text ∧ reviewResponse (webBody "2") o =
          answerTo reviewVersion "req-1" (denial ("Pod denied by QuotaPolicy: " ++ text)) := by
  intro o
  have posted : ReviewOf (webReview "2") (webRequest "2") reviewVersion "req-1" "team-a" :=
    ⟨rfl, rfl, rfl, rfl, .inr ⟨_, rfl⟩, by decide +kernel⟩
  have readable : Json.readBytes bodyLimits (webBody "2") = .ok (.obj (webReview "2")) :=
    webReview_reads (by decide +kernel)
  have limit : Quantity.read "1" = .ok (.finite 1 0) := eq_ok_of_toOption (by decide +kernel)
  have requests : (webPod "2").requests = .ok ⟨.finite 2 0, 0⟩ :=
    eq_ok_of_toOption (by decide +kernel)
  have used : Usage.projected [] (webPod "2") = .ok ⟨⟨.finite 2 0, 0⟩, 1⟩ :=
    eq_ok_of_toOption (by decide +kernel)
  have projects := webPod_projects limit requests used
  have amounts : Weighable o (webRequest "2") "team-a" := by
    refine ⟨fun name x hx => ?_, fun pods c hl => ?_, fun items hi item hitem c hc => ?_, ?_⟩
    · rw [(cpuLimited_get? hx).2]
      exact ⟨_, cpuLimit_policy limit, Policy.writable_of_amounts
        (Or.inr (Or.inr (by decide +kernel))) (Or.inr (Or.inl rfl))⟩
    · cases hl
      exact fun q hq => absurd hq List.not_mem_nil
    · cases hi
      rw [List.mem_singleton.mp hitem] at hc
      cases hc
      have below : Container.RequestsBelow digitLimit ⟨"c", some [("cpu", "2")]⟩ := by
        decide +kernel
      intro resource hr text ht x hx
      obtain ⟨y, hy, hb⟩ := below resource hr text ht
      exact Except.ok.inj (hy.symm.trans hx) ▸ hb
    · rintro p u ⟨_, _, pod, pods, c, read, listed, projected⟩
      rw [webPod_read, requests] at read
      cases read
      cases listed
      cases used.symm.trans projected
      exact ⟨by decide +kernel, by decide +kernel, by decide +kernel⟩
  obtain ⟨denied, _⟩ := validate_decides posted readable cpuLimited_textual amounts
  exact ⟨posted, readable, cpuLimited_textual, amounts,
    denied ⟨_, _, projects, .cpu, by decide +kernel, by decide +kernel⟩⟩

/-! ### Reviews that are not answered -/

/-- A request that counts something. -/
def countRequest (n : Int) : List (String × Json) :=
  [("uid", .str "req-1"), ("namespace", .str "team-a"), ("count", .int n)]

/-- The review of this request. -/
def countReview (n : Int) : List (String × Json) :=
  [("apiVersion", .str reviewVersion), ("request", .obj (countRequest n))]

/-- The bytes of such a review, with a count of so many ones. -/
def countBody (ones : Nat) : List UInt8 :=
  ((["\x7b\"apiVersion\":\"admission.k8s.io/v1\",", "\"request\":\x7b\"uid\":\"req-1\",",
    "\"namespace\":\"team-a\",", "\"count\":"].flatMap Json.word) ++
      (List.replicate ones 49 ++ Json.word "\x7d\x7d")).map UInt8.ofNat

/-- The count in such a review. -/
def count? : Json → Option Int
  | .obj [("apiVersion", .str "admission.k8s.io/v1"), ("request", .obj [("uid", .str "req-1"),
      ("namespace", .str "team-a"), ("count", .int n)])] => some n
  | _ => none

theorem eq_countReview {x : Except ReadFailure Json} {n : Int}
    (h : x.toOption.bind count? = some n) : x = .ok (.obj (countReview n)) := by
  cases x with
  | error e => cases h
  | ok v =>
      change count? v = some n at h
      unfold count? at h
      split at h
      · cases h
        rfl
      · cases h

/-- The digits of a limit between two whole numbers, just below `10 ^ digitLimit`. -/
def longDigits : List Char := '1' :: (List.replicate (digitLimit - 1) '0' ++ ['.', '5'])

set_option maxRecDepth 100000 in
theorem read_longDigits :
    Quantity.read (String.ofList longDigits) = .ok (.finite (10 ^ digitLimit + 5) (-1)) := by
  have given : String.ofList longDigits ≠ "" := fun h => by
    have empty := congrArg String.toList h
    rw [String.toList_ofList] at empty
    cases empty
  have unitless : Quantity.splitUnit longDigits.reverse = (longDigits.reverse, none) := by
    rw [longDigits, List.reverse_cons, List.reverse_append]
    rfl
  have sign : splitSign ((Text.trim Text.isBlank longDigits).filter (· != '_')) =
      (false, longDigits) := by decide +kernel
  have number : Decimal.readNumber? (longDigits.map Decimal.glyph) =
      some (10 ^ digitLimit + 5, -1) := by decide +kernel
  have canonical : Decimal.ofParts (signed false (10 ^ digitLimit + 5)) (-1) =
      .finite (10 ^ digitLimit + 5) (-1) := by decide +kernel
  rw [← canonical]
  refine Quantity.read_unitless given ?_ (Decimal.read?_of_number ?_ number)
  · rw [String.toList_ofList]
    exact unitless
  · rw [String.toList_ofList]
    exact sign

set_option maxRecDepth 100000 in
/-- Two reviews that are not answered. One holds an integer that is too long to be read, though
nothing looks at it. The other asks for a pod above a limit that is too long to be written, though
it is less than `10 ^ digitLimit`. -/
theorem validate_unanswered :
    (let o : Operator InMemory Float := Operator.start InMemory.empty
      let body := countBody (digitLimit + 1)
      ∃ n, ReviewOf (countReview n) (countRequest n) reviewVersion "req-1" "team-a" ∧
        Json.readBytes { bodyLimits with digits := none } body = .ok (.obj (countReview n)) ∧
        o.policies.index.Textual ApiObject.HasTexts ∧ Weighable o (countRequest n) "team-a" ∧
        (reviewResponse body o).status ≠ 200) ∧
      let o := cpuLimited (String.ofList longDigits)
      let review := webReview "2e4299"
      ReviewOf review (webRequest "2e4299") reviewVersion "req-1" "team-a" ∧
        Json.readBytes bodyLimits (webBody "2e4299") = .ok (.obj review) ∧
        o.policies.index.Textual ApiObject.HasTexts ∧
        (∃ p u, Projects o (webRequest "2e4299") "team-a" p u ∧ u.Exceeds p .cpu ∧
          p.maxCpu.Below digitLimit ∧ u.toAmounts.Moderate) ∧
        reviewResponse (webBody "2e4299") o = serverError := by
  constructor
  · intro o body
    obtain ⟨n, hn⟩ := Option.isSome_iff_exists.mp (show
      ((Json.readBytes { bodyLimits with digits := none } body).toOption.bind count?).isSome = true
      by decide +kernel)
    have unread : (Json.readBytes bodyLimits body).toOption.isSome = false := by decide +kernel
    refine ⟨n, ⟨rfl, rfl, rfl, rfl, .inl rfl, by decide +kernel⟩, eq_countReview hn,
      Index.empty_textual, ⟨nofun, fun pods c hl => ?_, fun items hi => ?_, ?_⟩, ?_⟩
    · cases hl
      exact fun q hq => absurd hq List.not_mem_nil
    · cases hi
      exact fun item hitem => absurd hitem List.not_mem_nil
    · intro p u projects
      cases projects.creates.creates
    · cases hb : Json.readBytes bodyLimits body with
      | error e => exact reviewResponse_unread hb o
      | ok v =>
          rw [hb] at unread
          cases unread
  · intro o review
    have posted := webReview_podReview "2e4299"
    have readable : Json.readBytes bodyLimits (webBody "2e4299") = .ok (.obj review) :=
      webReview_reads (by decide +kernel)
    have requests : (webPod "2e4299").requests = .ok ⟨.finite 2 4299, 0⟩ :=
      eq_ok_of_toOption (by decide +kernel)
    have used : Usage.projected [] (webPod "2e4299") = .ok ⟨⟨.finite 2 4299, 0⟩, 1⟩ :=
      eq_ok_of_toOption (by decide +kernel)
    have projects := webPod_projects read_longDigits requests used
    obtain ⟨notes, governing⟩ := governingPolicy?_of_governs cpuLimited_textual
      (cpuLimited_readable read_longDigits) (cpuLimited_governs read_longDigits) o.site
    have unwritten : (decisionOn (cpuPolicy (.finite (10 ^ digitLimit + 5) (-1))) []
        (webPod "2e4299")).toOption = none := by decide +kernel
    refine ⟨⟨rfl, rfl, rfl, rfl, .inr ⟨_, rfl⟩, by decide +kernel⟩, readable, cpuLimited_textual,
      ⟨_, _, projects, ⟨by decide +kernel, by decide +kernel⟩, by decide +kernel,
        by decide +kernel, by decide +kernel⟩, ?_⟩
    cases hd : decisionOn (cpuPolicy (.finite (10 ^ digitLimit + 5) (-1))) [] (webPod "2e4299") with
    | ok d =>
        rw [hd] at unwritten
        cases unwritten
    | error f =>
        have read : Pod.ofJson (reviewedPod (webRequest "2e4299")) = .ok (webPod "2e4299") := by
          rw [webPod_read, requests]
          rfl
        exact posted.reviewResponse_stuck readable (.deciding read governing rfl hd)

end QuotaWarden
