import QuotaWarden.Cluster.InMemory
import QuotaWarden.Proofs.AdmissionAgreement
import QuotaWarden.Proofs.ReadingLimits
import QuotaWarden.Proofs.WrittenTexts
import QuotaWarden.Webhook.Http

/-! # How far the webhook fails open

A pod that cannot be judged should be let in. The answer to a review is followed from the pod in it
to the response.

* Reading a pod fails with a fault that is let in, or with a signal of the arithmetic, which is not
  (`Pod.ofJson_ends`).
* A review of a pod comes to one of three ends. `Stuck` is the case in which no answer is given:
  such a signal, a policy that cannot be found or read, or a usage that cannot be computed, compared
  or written. `Refused` and `LetIn` are the others.
* `reviewResponse` is the response to a body. `validate_fails_open` says which one each end has, and
  `validate_signalling` is a review that is stuck. -/

namespace QuotaWarden

variable {σ τ : Type} [ClusterApi σ]

/-! ### Reading a pod -/

/-- A fault that lets a pod in. -/
def Fault.LetsIn (f : Fault) : Prop := f.isUnusable = true

/-- A fault that lets a pod in, or a signal of the arithmetic. -/
def Fault.IsDecoding (f : Fault) : Prop := f.LetsIn ∨ ∃ s, f = .signal s

theorem part_ends (name : String) (fields : List (String × Json)) :
    Ends (fun _ => True) Fault.LetsIn (part name fields) := by
  unfold part
  split
  · exact trivial
  · exact rfl

theorem requiredText_ends (v : Json) : Ends (fun _ => True) Fault.LetsIn (requiredText v) := by
  cases v <;> first | exact trivial | exact rfl

theorem optionalText_ends (v : Json) : Ends (fun _ => True) Fault.LetsIn (optionalText v) := by
  cases v <;> first | exact trivial | exact rfl

theorem iterate_ends (v : Json) : Ends (fun _ => True) Fault.LetsIn (iterate v) := by
  unfold iterate
  split
  · exact trivial
  · exact rfl

theorem readRequests_ends (fields : List (String × Json)) :
    Ends (fun _ => True) Fault.LetsIn (readRequests fields) :=
  Ends.mapM (fun (_, v) => (requiredText_ends v).bind fun _ _ => trivial) fields

theorem Container.ofJson_ends (v : Json) :
    Ends (fun _ => True) Fault.LetsIn (Container.ofJson v) := by
  unfold Container.ofJson
  split
  · next fields =>
    refine (part_ends _ _).bind fun resources _ => ?_
    have named : ∀ requests : Option (List (String × String)),
        Ends (fun _ => True) Fault.LetsIn (do
          let name ← requiredText ((Json.ofOption (field? "name" fields)).orElse (.str ""))
          return (⟨name, requests⟩ : Container)) := fun requests =>
      (requiredText_ends _).bind fun _ _ => trivial
    dsimp only
    split
    · exact named none
    · next requested _ =>
        have read : Ends (fun _ => True) Fault.LetsIn (some <$> readRequests requested) :=
          (readRequests_ends requested).bind fun _ _ => trivial
        exact read.bind fun requests _ => named requests
    · exact rfl
  · exact rfl

theorem Quantity.read_ends (text : String) :
    Ends (fun _ => True) Fault.LetsIn (Quantity.read text) := by
  unfold Quantity.read
  split
  · exact trivial
  · unfold Quantity.readNonempty
    dsimp only
    split
    · exact rfl
    · split
      · exact trivial
      · split
        · exact rfl
        · split
          · exact trivial
          · exact rfl

theorem liftSignal_ends {α : Type} (x : Except Signal α) :
    Ends (fun _ => True) Fault.IsDecoding (liftSignal x) := by
  cases x with
  | ok a => exact trivial
  | error s => exact Or.inr ⟨s, rfl⟩

theorem addRequest_ends (requests : List (String × String)) (resource : String) (sum : Decimal) :
    Ends (fun _ => True) Fault.IsDecoding (addRequest requests resource sum) := by
  unfold addRequest
  split
  · exact trivial
  · next text _ =>
      have read : Ends (fun _ => True) Fault.IsDecoding (Quantity.read text) :=
        (Quantity.read_ends text).mono (fun _ => id) fun _ => Or.inl
      exact read.bind fun _ _ => liftSignal_ends _

theorem Container.addTo_ends (sum : Amounts) (c : Container) :
    Ends (fun _ => True) Fault.IsDecoding (c.addTo sum) :=
  (addRequest_ends _ _ _).bind fun _ _ => (addRequest_ends _ _ _).bind fun _ _ => trivial

/-- The containers that an untyped pod lists. -/
def listedContainers (v : Json) : Except Fault (List Json) :=
  match v with
  | .obj fields => do iterate (Json.ofOption (field? "containers" (← part "spec" fields)))
  | v => .error (.podNotAMapping v.kindName)

/-- `Pod.ofJson` ends by a fault that `LetsIn`, or as the fold of `Container.addTo` does. -/
theorem Pod.ofJson_ends_of {v : Json} {P : List Container → Prop} {Q : Fault → Prop}
    (letsIn : ∀ f, Fault.LetsIn f → Q f)
    (sums : ∀ items containers, listedContainers v = .ok items →
      items.mapM Container.ofJson = .ok containers →
      Ends (fun _ => P containers) Q (containers.foldlM Container.addTo .zero)) :
    Ends (fun pod => P pod.containers) Q (Pod.ofJson v) := by
  have lift : ∀ {α : Type} {x : Except Fault α}, Ends (fun _ => True) Fault.LetsIn x →
      Ends (fun a => x = .ok a) Q x := fun h => h.known.mono (fun _ => id) letsIn
  unfold Pod.ofJson
  split
  · next fields =>
      refine (lift (part_ends _ _)).bind fun metadata _ => ?_
      refine (lift (part_ends _ _)).bind fun spec hspec => ?_
      refine (lift (part_ends _ _)).bind fun status _ => ?_
      refine (lift (iterate_ends _)).bind fun items hitems => ?_
      refine (lift (Ends.mapM Container.ofJson_ends items)).bind fun containers hcontainers => ?_
      refine (lift (optionalText_ends _)).bind fun name _ => ?_
      refine (lift (optionalText_ends _)).bind fun ns _ => ?_
      refine (lift (optionalText_ends _)).bind fun phase _ => ?_
      have listed : listedContainers (.obj fields) = .ok items := by
        simpa [listedContainers, hspec, bind, Except.bind] using hitems
      exact (sums items containers listed hcontainers).bind fun _ hp => hp
  · exact letsIn _ rfl

/-- `Pod.ofJson` fails with `Fault.IsDecoding`: a fault that `LetsIn`, or a signal. -/
theorem Pod.ofJson_ends (v : Json) : Ends (fun _ => True) Fault.IsDecoding (Pod.ofJson v) :=
  Pod.ofJson_ends_of (fun _ => Or.inl) fun _ containers _ _ =>
    Ends.foldlM Container.addTo_ends containers .zero

/-! ### Sending an answer -/

theorem sendJson_answer {review : List (String × Json)} {version uid message : String}
    (hversion : field? "apiVersion" review = some (.str version))
    (hv : Text.hasSurrogate version = false) (hu : Text.hasSurrogate uid = false)
    (hm : Text.hasSurrogate message = false) (allowed : Bool) :
    sendJson 200 (reviewAnswer review (.str uid) (.bool allowed) (.str message)) =
      ⟨200, .json (reviewAnswer review (.str uid) (.bool allowed) (.str message))⟩ := by
  have names : ∀ s ∈ ["apiVersion", "kind", "AdmissionReview", "response", "uid", "allowed",
      "status", "code", "message", reviewVersion], Text.hasSurrogate s = false := by decide +kernel
  simp only [List.forall_mem_cons] at names
  have given : ∃ t, (Json.str version).orElse (.str reviewVersion) = .str t ∧
      Text.hasSurrogate t = false := by
    unfold Json.orElse
    split
    · exact ⟨version, rfl, hv⟩
    · exact ⟨reviewVersion, rfl, by simp [names]⟩
  obtain ⟨t, ht, hplain⟩ := given
  cases allowed with
  | true =>
      simp [sendJson, reviewAnswer, hversion, Json.ofOption, ht, Json.truthy, Json.hasText,
        Json.fieldsHaveText, Json.nestsWithin, Json.fieldsNestWithin, sentDepth, names, hplain, hu]
  | false =>
      simp [sendJson, reviewAnswer, refusalStatus, hversion, Json.ofOption, ht, Json.truthy,
        Json.hasText, Json.fieldsHaveText, Json.nestsWithin, Json.fieldsNestWithin, sentDepth,
        names, hplain, hu, hm]

/-! ### Deciding on a pod -/

theorem decideUnder_unlisted {p : Policy} {ns : Json} {pod : Pod} {s : Site σ τ} {f : Fault} {c : σ}
    (hl : ClusterApi.listPods ns s.cluster = (.error f, c)) :
    (decideUnder p ns pod s).1 = .ok .allow := by
  unfold decideUnder
  rw [Act.bind_apply, Act.attempt_apply, call_apply, hl]
  rfl

theorem decideAdmission_ungoverned {policies : WatchCache} {ns : Json} {pod : Pod}
    {s t : Site σ τ} {f : Fault} (hg : governingPolicy? policies ns s = (.error f, t)) :
    (decideAdmission policies ns pod s).1 = .error f := by
  unfold decideAdmission
  rw [Act.bind_of_error hg]

theorem decideAdmission_free {policies : WatchCache} {ns : Json} {pod : Pod} {s t : Site σ τ}
    (hg : governingPolicy? policies ns s = (.ok none, t)) :
    (decideAdmission policies ns pod s).1 = .ok .allow := by
  unfold decideAdmission
  rw [Act.bind_of_ok hg]
  rfl

theorem decideAdmission_unlisted {policies : WatchCache} {ns : Json} {pod : Pod} {s t : Site σ τ}
    {p : Policy} {f : Fault} {c : σ} (hg : governingPolicy? policies ns s = (.ok (some p), t))
    (hl : ClusterApi.listPods ns t.cluster = (.error f, c)) :
    (decideAdmission policies ns pod s).1 = .ok .allow := by
  unfold decideAdmission
  rw [Act.bind_of_ok hg]
  exact decideUnder_unlisted (s := { t with metrics := _ }) hl

theorem reviewPod_fst (policies : WatchCache) (review : List (String × Json)) (uid ns : Json)
    (pod : Pod) (s : Site σ τ) :
    (reviewPod policies review uid ns pod s).1 = (decideAdmission policies ns pod s).1.map fun d =>
      if d.allowed then allowReview review uid
      else refuseReview review uid ("Pod denied by QuotaPolicy: " ++ d.message) := by
  unfold reviewPod
  rw [Act.bind_apply]
  rcases decideAdmission policies ns pod s with ⟨r, t⟩
  cases r with
  | error f => rfl
  | ok d => cases hd : d.allowed <;> simp [Except.map, hd]

/-! ### Reviews of new pods -/

/-- A review of a pod that is to be made, with the fields of its request. The version and the
identifier, which come back in the answer, are texts that can be sent. -/
structure PodReview (review request : List (String × Json)) (version uid ns : String) : Prop where
  versioned : field? "apiVersion" review = some (.str version)
  requested : field? "request" review = some (.obj request)
  identified : field? "uid" request = some (.str uid)
  placed : field? "namespace" request = some (.str ns)
  aboutPod : ∃ kind, field? "kind" request = some (.obj kind) ∧
    field? "kind" kind = some (.str "Pod")
  creates : field? "operation" request = some (.str "CREATE")
  sendable : Text.hasSurrogate version = false ∧ Text.hasSurrogate uid = false

/-- The pod in a request. -/
def reviewedPod (request : List (String × Json)) : Json :=
  (Json.ofOption (field? "object" request)).orElse (.obj [])

/-- The review of a pod finds no answer. -/
inductive Stuck (policies : WatchCache) (ns object : Json) (s : Site σ τ) : Prop
  /-- The arithmetic stops at what the pod requests. -/
  | reading {signal : Signal} : Pod.ofJson object = .error (.signal signal) →
      Stuck policies ns object s
  /-- The policy of the namespace cannot be found or read. -/
  | governing {pod : Pod} {f : Fault} {t : Site σ τ} : Pod.ofJson object = .ok pod →
      governingPolicy? policies ns s = (.error f, t) → Stuck policies ns object s
  /-- The usage with the pod cannot be computed, compared or written. -/
  | deciding {pod : Pod} {p : Policy} {t : Site σ τ} {pods : List Pod} {c : σ} {f : Fault} :
      Pod.ofJson object = .ok pod → governingPolicy? policies ns s = (.ok (some p), t) →
      ClusterApi.listPods ns t.cluster = (.ok pods, c) → decisionOn p pods pod = .error f →
      Stuck policies ns object s

/-- The pod would take its namespace above a limit, and is told so. -/
inductive Refused (policies : WatchCache) (ns object : Json) (s : Site σ τ) : String → Prop
  | above {pod : Pod} {p : Policy} {t : Site σ τ} {pods : List Pod} {c : σ} {d : Decision} :
      Pod.ofJson object = .ok pod → governingPolicy? policies ns s = (.ok (some p), t) →
      ClusterApi.listPods ns t.cluster = (.ok pods, c) → decisionOn p pods pod = .ok d →
      d.allowed = false → Refused policies ns object s ("Pod denied by QuotaPolicy: " ++ d.message)

/-- The pod is let in. -/
inductive LetIn (policies : WatchCache) (ns object : Json) (s : Site σ τ) : Prop
  /-- The pod cannot be read. -/
  | undecodable {f : Fault} : Pod.ofJson object = .error f → f.isUnusable = true →
      LetIn policies ns object s
  /-- Its namespace has no policy. -/
  | ungoverned {pod : Pod} {t : Site σ τ} : Pod.ofJson object = .ok pod →
      governingPolicy? policies ns s = (.ok none, t) → LetIn policies ns object s
  /-- The pods of its namespace cannot be listed. -/
  | unlisted {pod : Pod} {p : Policy} {t : Site σ τ} {f : Fault} {c : σ} :
      Pod.ofJson object = .ok pod → governingPolicy? policies ns s = (.ok (some p), t) →
      ClusterApi.listPods ns t.cluster = (.error f, c) → LetIn policies ns object s
  /-- The pod takes its namespace above no limit. -/
  | within {pod : Pod} {p : Policy} {t : Site σ τ} {pods : List Pod} {c : σ} {d : Decision} :
      Pod.ofJson object = .ok pod → governingPolicy? policies ns s = (.ok (some p), t) →
      ClusterApi.listPods ns t.cluster = (.ok pods, c) → decisionOn p pods pod = .ok d →
      d.allowed = true → LetIn policies ns object s

variable {policies : WatchCache} {review request : List (String × Json)}
  {version uid ns message : String} {s : Site σ τ}

theorem requestOf_given (requested : field? "request" review = some (.obj request))
    (identified : field? "uid" request = some (.str uid)) :
    requestOf (.obj review) = some (review, .obj request) := by
  have given : (Json.obj request).truthy = true := by
    cases request with
    | nil => exact nomatch identified
    | cons _ _ => rfl
  simp [requestOf, requested, Json.ofOption, given]

/-- Every pod is `Stuck`, `Refused` or `LetIn`. -/
theorem stuck_or_refused_or_letIn (policies : WatchCache) (ns object : Json) (s : Site σ τ) :
    Stuck policies ns object s ∨ (∃ message, Refused policies ns object s message) ∨
      LetIn policies ns object s := by
  cases hp : Pod.ofJson object with
  | error f =>
      have ends := Pod.ofJson_ends object
      rw [hp] at ends
      rcases ends with unusable | ⟨signal, rfl⟩
      · exact Or.inr (Or.inr (.undecodable hp unusable))
      · exact Or.inl (.reading hp)
  | ok pod =>
      rcases hg : governingPolicy? policies ns s with ⟨found, t⟩
      rcases found with f | none | p
      · exact Or.inl (.governing hp hg)
      · exact Or.inr (Or.inr (.ungoverned hp hg))
      · rcases hl : ClusterApi.listPods ns t.cluster with ⟨f | pods, c⟩
        · exact Or.inr (Or.inr (.unlisted hp hg hl))
        · cases hd : decisionOn p pods pod with
          | error f => exact Or.inl (.deciding hp hg hl hd)
          | ok d =>
              cases ha : d.allowed with
              | false => exact Or.inr (Or.inl ⟨_, .above hp hg hl hd ha⟩)
              | true => exact Or.inr (Or.inr (.within hp hg hl hd ha))

theorem Refused.ascii {ns object : Json} (h : Refused policies ns object s message) :
    Text.Ascii message := by
  cases h with
  | @above pod p t pods c d hp hg hl hd ha =>
      have decided : Ends (fun d : Decision => Text.Ascii d.message) (fun _ => True)
          (decisionOn p pods pod) := (Ends.any _).bind fun u _ => u.decide_ascii p
      rw [hd] at decided
      exact Text.Ascii.append (by decide +kernel) decided

namespace PodReview

variable (h : PodReview review request version uid ns)

include h

theorem reviewRequest_apply :
    reviewRequest policies review (.obj request) s =
      match Pod.ofJson (reviewedPod request) with
      | .ok pod => reviewPod policies review (.str uid) (.str ns) pod s
      | .error f =>
        if f.isUnusable then
          (.ok (allowReview review (.str uid)),
            (Site.say .warning ("Allowing undecodable pod in " ++ ns ++ ": " ++ f.message) s).2)
        else (.error f, s) := by
  obtain ⟨kind, hkind, hname⟩ := h.aboutPod
  have given : givenMapping (Json.ofOption (field? "kind" request)) = .ok kind := by
    rw [hkind]
    cases kind <;> rfl
  have proceeds : (!((Json.ofOption (field? "kind" kind)).same (.str "Pod") &&
      (Json.ofOption (field? "operation" request)).same (.str "CREATE"))) = false := by
    simp [hname, h.creates, Json.ofOption]
  unfold reviewRequest reviewedPod
  refine (Act.bind_of_ok (x := request) rfl).trans ?_
  refine (Act.bind_of_ok (x := kind) (congrArg (·, s) given)).trans ?_
  rw [proceeds, if_neg Bool.false_ne_true, h.identified, h.placed]
  cases Pod.ofJson ((Json.ofOption (field? "object" request)).orElse (.obj [])) with
  | ok pod => rfl
  | error f => cases hf : f.isUnusable <;> simp [hf, Site.say, Act.bind_apply, Json.display]

theorem review_read {pod : Pod} (hp : Pod.ofJson (reviewedPod request) = .ok pod) :
    (reviewRequest policies review (.obj request) s).1 =
      (decideAdmission policies (.str ns) pod s).1.map fun d =>
        if d.allowed then allowReview review (.str uid)
        else refuseReview review (.str uid) ("Pod denied by QuotaPolicy: " ++ d.message) := by
  rw [h.reviewRequest_apply, hp]
  exact reviewPod_fst policies review (.str uid) (.str ns) pod s

theorem review_stuck (stuck : Stuck policies (.str ns) (reviewedPod request) s) :
    ∃ f, (reviewRequest policies review (.obj request) s).1 = .error f := by
  cases stuck with
  | @reading signal hp =>
      refine ⟨.signal signal, ?_⟩
      rw [h.reviewRequest_apply, hp]
      cases signal <;> rfl
  | @governing pod f t hp hg =>
      refine ⟨f, ?_⟩
      rw [h.review_read hp, decideAdmission_ungoverned hg]
      rfl
  | @deciding pod p t pods c f hp hg hl hd =>
      refine ⟨f, ?_⟩
      rw [h.review_read hp, decideAdmission_fst hg hl, hd]
      rfl

theorem review_refused (refused : Refused policies (.str ns) (reviewedPod request) s message) :
    (reviewRequest policies review (.obj request) s).1 =
      .ok (refuseReview review (.str uid) message) := by
  cases refused with
  | @above pod p t pods c d hp hg hl hd ha =>
      rw [h.review_read hp, decideAdmission_fst hg hl, hd]
      simp [Except.map, ha]

theorem review_letIn (free : LetIn policies (.str ns) (reviewedPod request) s) :
    (reviewRequest policies review (.obj request) s).1 = .ok (allowReview review (.str uid)) := by
  cases free with
  | undecodable hp unusable =>
      rw [h.reviewRequest_apply, hp]
      simp [unusable]
  | ungoverned hp hg =>
      rw [h.review_read hp, decideAdmission_free hg]
      rfl
  | unlisted hp hg hl =>
      rw [h.review_read hp, decideAdmission_unlisted hg hl]
      rfl
  | within hp hg hl hd ha =>
      rw [h.review_read hp, decideAdmission_fst hg hl, hd]
      simp [Except.map, ha]

theorem requestOf_eq : requestOf (.obj review) = some (review, .obj request) :=
  requestOf_given h.requested h.identified

end PodReview

/-! ### Responses -/

/-- The response to bodies that are posted for review. -/
def reviewResponse (body : List UInt8) (o : Operator σ τ) : HttpResponse :=
  (respond .webhook ⟨"POST", "/validate", body⟩ o).1

theorem reviewResponse_eq (body : List UInt8) (o : Operator σ τ) :
    reviewResponse body o =
      match (validate o.policies body o.site).1 with
      | .ok response => response
      | .error _ => serverError := by
  have page : HttpPage.at? .webhook "/validate" = some .validate := by decide +kernel
  have answered : answerPage .validate body o =
      ((validate o.policies body o.site).1,
        { o with site := (validate o.policies body o.site).2 }) := rfl
  unfold reviewResponse respond
  rw [page]
  dsimp only
  rw [if_neg (by decide), answered]
  cases (validate o.policies body o.site).1 <;> rfl

theorem reviewResponse_unread {body : List UInt8} {e : ReadFailure}
    (h : Json.readBytes bodyLimits body = .error e) (o : Operator σ τ) :
    (reviewResponse body o).status ≠ 200 := by
  rw [reviewResponse_eq]
  unfold validate
  rw [h]
  cases e with
  | malformed => exact show 400 ≠ 200 by decide
  | tooDeep => exact show 500 ≠ 200 by decide

/-- The response is that of `reviewRequest`, or `serverError`. -/
theorem reviewResponse_of_request {body : List UInt8} {v : Json}
    (readable : Json.readBytes bodyLimits body = .ok (.obj review))
    (given : requestOf (.obj review) = some (review, v)) (o : Operator σ τ) :
    reviewResponse body o =
      match (reviewRequest o.policies review v o.site).1 with
      | .ok response => response
      | .error _ => serverError := by
  rw [reviewResponse_eq]
  unfold validate
  rw [readable]
  dsimp only
  rw [given]

section

variable {limits : ReadLimits} {body : List UInt8} (h : PodReview review request version uid ns)

include h

namespace PodReview

theorem reviewResponse_read (readable : Json.readBytes bodyLimits body = .ok (.obj review))
    (o : Operator σ τ) :
    reviewResponse body o =
      match (reviewRequest o.policies review (.obj request) o.site).1 with
      | .ok response => response
      | .error _ => serverError := reviewResponse_of_request readable h.requestOf_eq o

variable {o : Operator σ τ} (readable : Json.readBytes bodyLimits body = .ok (.obj review))

include readable

theorem reviewResponse_stuck (stuck : Stuck o.policies (.str ns) (reviewedPod request) o.site) :
    reviewResponse body o = serverError := by
  obtain ⟨f, hf⟩ := h.review_stuck stuck
  rw [h.reviewResponse_read readable, hf]

theorem reviewResponse_refused
    (refused : Refused o.policies (.str ns) (reviewedPod request) o.site message) :
    reviewResponse body o =
      ⟨200, .json (reviewAnswer review (.str uid) (.bool false) (.str message))⟩ := by
  rw [h.reviewResponse_read readable, h.review_refused refused]
  exact sendJson_answer h.versioned h.sendable.1 h.sendable.2 refused.ascii.hasSurrogate false

theorem reviewResponse_letIn (letIn : LetIn o.policies (.str ns) (reviewedPod request) o.site) :
    reviewResponse body o =
      ⟨200, .json (reviewAnswer review (.str uid) (.bool true) (.str ""))⟩ := by
  rw [h.reviewResponse_read readable, h.review_letIn letIn]
  exact sendJson_answer h.versioned h.sendable.1 h.sendable.2 (by decide +kernel) true

end PodReview

/-- A review of a new pod is answered with status 200 exactly if its body can be read within the
limits and the review is not stuck. The answer carries its identifier. It lets the pod in unless the
pod is refused for a limit; a pod that cannot be read is let in, and so is one if the pods of its
namespace cannot be listed. A review that is stuck is answered with status 500. -/
theorem validate_fails_open (hread : Json.readBytes limits body = .ok (.obj review))
    (o : Operator σ τ) :
    let response := reviewResponse body o
    let answer allowed text : HttpResponse :=
      ⟨200, .json (reviewAnswer review (.str uid) (.bool allowed) (.str text))⟩
    let readable := Json.readBytes bodyLimits body = .ok (.obj review)
    let stuck := Stuck o.policies (.str ns) (reviewedPod request) o.site
    let refused := Refused o.policies (.str ns) (reviewedPod request) o.site
    let letIn := LetIn o.policies (.str ns) (reviewedPod request) o.site
    (response.status = 200 ↔ readable ∧ ¬ stuck) ∧
      (readable → stuck → response = serverError) ∧
      (readable → ∀ message, refused message → response = answer false message) ∧
      (readable → letIn → response = answer true "") ∧
      (stuck ∨ (∃ message, refused message) ∨ letIn) := by
  have outcomes := stuck_or_refused_or_letIn o.policies (.str ns) (reviewedPod request) o.site
  refine ⟨⟨fun ok => ?_, fun ⟨hr, hs⟩ => ?_⟩, h.reviewResponse_stuck,
    fun hr _ => h.reviewResponse_refused hr, h.reviewResponse_letIn, outcomes⟩
  · have hr : Json.readBytes bodyLimits body = .ok (.obj review) := by
      cases hb : Json.readBytes bodyLimits body with
      | error e => exact absurd ok (reviewResponse_unread hb o)
      | ok v => rw [Json.readBytes_same _ _ _ _ _ hb hread]
    refine ⟨hr, fun stuck => ?_⟩
    rw [h.reviewResponse_stuck hr stuck] at ok
    exact absurd ok (by decide)
  · rcases outcomes with stuck | ⟨message, refused⟩ | letIn
    · exact absurd stuck hs
    · rw [h.reviewResponse_refused hr refused]
    · rw [h.reviewResponse_letIn hr letIn]

end

/-- The request for a pod with one container, which requests so much processor time. -/
def webRequest (cpu : String) : List (String × Json) :=
  [("uid", .str "req-1"), ("kind", .obj [("kind", .str "Pod")]), ("namespace", .str "team-a"),
    ("operation", .str "CREATE"),
    ("object", .obj [("metadata", .obj [("name", .str "web")]), ("spec", .obj [("containers",
      .arr [.obj [("name", .str "c"),
        ("resources", .obj [("requests", .obj [("cpu", .str cpu)])])]])])])]

/-- The review of this request. -/
def webReview (cpu : String) : List (String × Json) :=
  [("apiVersion", .str reviewVersion), ("kind", .str "AdmissionReview"),
    ("request", .obj (webRequest cpu))]

/-- The bytes of this review. -/
def webBody (cpu : String) : List UInt8 :=
  (["\x7b\"apiVersion\":\"admission.k8s.io/v1\",", "\"kind\":\"AdmissionReview\",",
    "\"request\":\x7b\"uid\":\"req-1\",", "\"kind\":\x7b\"kind\":\"Pod\"\x7d,",
    "\"namespace\":\"team-a\",", "\"operation\":\"CREATE\",",
    "\"object\":\x7b\"metadata\":\x7b\"name\":\"web\"\x7d,", "\"spec\":\x7b\"containers\":[",
    "\x7b\"name\":\"c\",", "\"resources\":\x7b\"requests\":\x7b\"cpu\":\"", cpu,
    "\"\x7d\x7d\x7d]\x7d\x7d\x7d\x7d"].flatMap Json.word).map UInt8.ofNat

/-- The processor time in such a review. -/
def webCpu? : Json → Option String
  | .obj [("apiVersion", .str "admission.k8s.io/v1"), ("kind", .str "AdmissionReview"),
      ("request", .obj [("uid", .str "req-1"), ("kind", .obj [("kind", .str "Pod")]),
        ("namespace", .str "team-a"), ("operation", .str "CREATE"),
        ("object", .obj [("metadata", .obj [("name", .str "web")]), ("spec", .obj [("containers",
          .arr [.obj [("name", .str "c"),
            ("resources", .obj [("requests", .obj [("cpu", .str cpu)])])]])])])])] => some cpu
  | _ => none

theorem webReview_reads {cpu : String}
    (h : (Json.readBytes bodyLimits (webBody cpu)).toOption.bind webCpu? = some cpu) :
    Json.readBytes bodyLimits (webBody cpu) = .ok (.obj (webReview cpu)) := by
  cases hv : Json.readBytes bodyLimits (webBody cpu) with
  | error e => simp [hv, Except.toOption] at h
  | ok v =>
      rw [hv] at h
      change webCpu? v = some cpu at h
      unfold webCpu? at h
      split at h
      · cases h
        rfl
      · cases h

theorem webReview_podReview (cpu : String) :
    PodReview (webReview cpu) (webRequest cpu) reviewVersion "req-1" "team-a" where
  versioned := rfl
  requested := rfl
  identified := rfl
  placed := rfl
  aboutPod := ⟨_, rfl, rfl⟩
  creates := rfl
  sendable := by decide +kernel

/-- A pod that requests a signalling NaN is not let in, and its review is not answered. -/
theorem validate_signalling :
    let review := webReview "sNaN"
    PodReview review (webRequest "sNaN") reviewVersion "req-1" "team-a" ∧
      Json.readBytes bodyLimits (webBody "sNaN") = .ok (.obj review) ∧
      reviewResponse (webBody "sNaN") (Operator.start InMemory.empty : Operator InMemory Float) =
        serverError := by
  intro review
  have posted : PodReview review (webRequest "sNaN") reviewVersion "req-1" "team-a" :=
    webReview_podReview "sNaN"
  have readable : Json.readBytes bodyLimits (webBody "sNaN") = .ok (.obj review) :=
    webReview_reads (by decide +kernel)
  have stops : Pod.ofJson (reviewedPod (webRequest "sNaN")) =
      .error (.signal .invalidOperation) := rfl
  exact ⟨posted, readable, posted.reviewResponse_stuck readable (.reading stops)⟩

/-- A pod whose request is no number is let in. -/
theorem validate_fails_open_unreadable :
    let review := webReview "lots"
    PodReview review (webRequest "lots") reviewVersion "req-1" "team-a" ∧
      Json.readBytes bodyLimits (webBody "lots") = .ok (.obj review) ∧
      reviewResponse (webBody "lots") (Operator.start InMemory.empty : Operator InMemory Float) =
        ⟨200, .json (reviewAnswer review (.str "req-1") (.bool true) (.str ""))⟩ := by
  intro review
  have posted : PodReview review (webRequest "lots") reviewVersion "req-1" "team-a" :=
    webReview_podReview "lots"
  have readable : Json.readBytes bodyLimits (webBody "lots") = .ok (.obj review) :=
    webReview_reads (by decide +kernel)
  have unread : Pod.ofJson (reviewedPod (webRequest "lots")) = .error (.badNumber "lots") := rfl
  obtain ⟨_, _, _, letIn, _⟩ := validate_fails_open (τ := Float) posted readable
    (Operator.start InMemory.empty : Operator InMemory Float)
  exact ⟨posted, readable, letIn readable (.undecodable unread rfl)⟩

end QuotaWarden
