import QuotaWarden.Proofs.ExactUsage
import QuotaWarden.Proofs.FailOpen
import Mathlib.Data.List.Perm.Basic

/-! # Reading a pod as it will be stored

A pod that asks to be admitted is read from an untyped object. Once it is stored, an enforcement is
given it as a typed pod. Both should see one pod.

* `PodView` is what is read of an untyped pod, and `PodView.read` types it. A pod is read by its
  view and by nothing else (`Pod.ofJson_eq_ok`).
* A container `Shows` what its view holds; pods whose containers show the same requests request the
  same (`Pod.requests_congr`).
* Views that agree up to the order of requests are read as pods that are `Alike`
  (`PodView.Agrees.read`).

`ofJson_reads` puts them together. -/

namespace QuotaWarden

/-! ### What is read of a pod -/

/-- What is read of an untyped container: its name, and its requests, none if they are not given. -/
structure ContainerView where
  name : Json
  requests : List (String × Json)

/-- What is read of an untyped pod. Values that are not given are null. -/
structure PodView where
  name : Json
  generateName : Json
  ns : Json
  phase : Json
  containers : List ContainerView

/-- The requests among the resources of a container. -/
def requestFields (resources : List (String × Json)) : Except Fault (List (String × Json)) :=
  match (Json.ofOption (field? "requests" resources)).orElse .null with
  | .null => .ok []
  | .obj requested => .ok requested
  | _ => .error (.notAMapping "container requests")

/-- The view of an untyped container; it fails where an object is expected and something else is
given. -/
def ContainerView.ofJson : Json → Except Fault ContainerView
  | .obj fields => do
    let resources ← part "resources" fields
    let requests ← requestFields resources
    return ⟨Json.ofOption (field? "name" fields), requests⟩
  | _ => .error (.notAMapping "container")

/-- The view of an untyped pod; it fails where an object is expected and something else is given. -/
def PodView.ofJson : Json → Except Fault PodView
  | .obj fields => do
    let metadata ← part "metadata" fields
    let spec ← part "spec" fields
    let status ← part "status" fields
    let items ← iterate (Json.ofOption (field? "containers" spec))
    let containers ← items.mapM ContainerView.ofJson
    return ⟨Json.ofOption (field? "name" metadata), Json.ofOption (field? "generateName" metadata),
      Json.ofOption (field? "namespace" metadata), Json.ofOption (field? "phase" status),
      containers⟩
  | v => .error (.podNotAMapping v.kindName)

/-- Types requests, if there are any. -/
def typedRequests : List (String × Json) → Except Fault (Option (List (String × String)))
  | [] => .ok none
  | e :: r => some <$> readRequests (e :: r)

/-- Types a container. -/
def ContainerView.read (shown : ContainerView) : Except Fault Container := do
  let requests ← typedRequests shown.requests
  let name ← requiredText (shown.name.orElse (.str ""))
  return ⟨name, requests⟩

/-- Types a pod whose requests can be summed. -/
def PodView.read (shown : PodView) : Except Fault Pod := do
  let containers ← shown.containers.mapM ContainerView.read
  let name ← optionalText (shown.name.orElse shown.generateName)
  let ns ← optionalText shown.ns
  let phase ← optionalText shown.phase
  let pod : Pod := ⟨some ⟨name, ns, none, none⟩, some containers, some ⟨phase⟩⟩
  let _ ← pod.requests
  return pod

theorem Json.orElse_null_obj {v : Json} {fields : List (String × Json)}
    (h : v.orElse .null = .obj fields) : fields ≠ [] := by
  unfold orElse at h
  split at h
  · next given =>
      rintro rfl
      rw [h] at given
      cases given
  · cases h

theorem Container.ofJson_eq (v : Json) :
    Container.ofJson v = ContainerView.ofJson v >>= ContainerView.read := by
  cases v
  case obj fields =>
    unfold Container.ofJson ContainerView.ofJson requestFields
    dsimp only
    cases part "resources" fields with
    | error f => rfl
    | ok resources =>
        simp only [bind, Except.bind]
        generalize h : (Json.ofOption (field? "requests" resources)).orElse .null = given
        cases given
        case obj requested =>
          cases requested with
          | nil => exact absurd rfl (Json.orElse_null_obj h)
          | cons e r => rfl
        all_goals rfl
  all_goals rfl

section

variable {ε α β γ δ : Type}

theorem mapM_bind_eq_ok {f : α → Except ε β} {g : β → Except ε γ} {xs : List α} {zs : List γ} :
    (xs.mapM fun x => f x >>= g) = .ok zs ↔ ∃ ys, xs.mapM f = .ok ys ∧ ys.mapM g = .ok zs := by
  simp only [mapM_eq_ok, bind_eq_ok]
  constructor
  · intro h
    induction h with
    | nil => exact ⟨[], .nil, .nil⟩
    | cons hz _ ih =>
        obtain ⟨y, hy, hz⟩ := hz
        obtain ⟨ys, hys, hzs⟩ := ih
        exact ⟨y :: ys, .cons hy hys, .cons hz hzs⟩
  · rintro ⟨ys, hys, hzs⟩
    induction hys generalizing zs with
    | nil =>
        cases hzs
        exact .nil
    | cons hy _ ih =>
        cases hzs with
        | cons hz hzs => exact .cons ⟨_, hy, hz⟩ (ih hzs)

theorem forall₂_carried {R : α → β → Prop} {P : α → γ → Prop} {P' : β → δ → Prop}
    {Q : γ → δ → Prop} {xs : List α} {ys : List β} {zs : List γ} (h : List.Forall₂ R xs ys)
    (hp : List.Forall₂ P xs zs)
    (carried : ∀ x y z, R x y → P x z → ∃ w, P' y w ∧ Q z w) :
    ∃ ws, List.Forall₂ P' ys ws ∧ List.Forall₂ Q zs ws := by
  induction h generalizing zs with
  | nil =>
      cases hp
      exact ⟨[], .nil, .nil⟩
  | cons hr _ ih =>
      cases hp with
      | cons hz hzs =>
          obtain ⟨w, hw, hq⟩ := carried _ _ _ hr hz
          obtain ⟨ws, hws, hqs⟩ := ih hzs
          exact ⟨w :: ws, .cons hw hws, .cons hq hqs⟩

end

theorem Pod.ofJson_eq_ok {v : Json} {pod : Pod} :
    Pod.ofJson v = .ok pod ↔ ∃ shown, PodView.ofJson v = .ok shown ∧ shown.read = .ok pod := by
  cases v
  case obj fields =>
    simp only [Pod.ofJson, PodView.ofJson, PodView.read, funext Container.ofJson_eq, bind_eq_ok,
      mapM_bind_eq_ok]
    constructor
    · rintro ⟨metadata, hm, spec, hs, status, ht, items, hi, containers, ⟨views, hv, hc⟩, rest⟩
      exact ⟨_, ⟨metadata, hm, spec, hs, status, ht, items, hi, views, hv, rfl⟩, containers, hc,
        rest⟩
    · rintro ⟨_, ⟨metadata, hm, spec, hs, status, ht, items, hi, views, hv, ⟨⟩⟩, containers, hc,
        rest⟩
      exact ⟨metadata, hm, spec, hs, status, ht, items, hi, containers, ⟨views, hv, hc⟩, rest⟩
  all_goals
    constructor
    · intro h
      cases h
    · rintro ⟨_, h, _⟩
      cases h

theorem PodView.listed {v : Json} {shown : PodView} (h : PodView.ofJson v = .ok shown) :
    ∃ items, listedContainers v = .ok items ∧
      items.mapM ContainerView.ofJson = .ok shown.containers := by
  cases v
  case obj fields =>
    simp only [PodView.ofJson, bind_eq_ok] at h
    obtain ⟨_, _, spec, hspec, _, _, items, hitems, containers, hcontainers, ⟨⟩⟩ := h
    exact ⟨items, bind_eq_ok.mpr ⟨spec, hspec, hitems⟩, hcontainers⟩
  all_goals exact nomatch h

/-! ### Containers and what they show -/

/-- Requests as fields. -/
def textFields (requests : List (String × String)) : List (String × Json) :=
  requests.map fun e => (e.1, .str e.2)

theorem field?_textFields (resource : String) (requests : List (String × String)) :
    field? resource (textFields requests) = (field? resource requests).map Json.str := by
  induction requests with
  | nil => rfl
  | cons e r ih =>
      unfold textFields field? at ih ⊢
      rw [List.map_cons, Dictionary.get?, Dictionary.get?, ih]
      split <;> rfl

theorem perm_textFields {fields : List (String × Json)} {requests : List (String × String)}
    (h : fields.Perm (textFields requests)) :
    ∃ others, fields = textFields others ∧ others.Perm requests := by
  have lifted := List.eq_map_comp_perm fun e : String × String => (e.1, Json.str e.2)
  exact (congrFun (congrFun lifted fields) requests).mpr h

theorem requiredText_eq_ok {v : Json} {s : String} : requiredText v = .ok s ↔ v = .str s := by
  cases v <;> simp [requiredText]

theorem optionalText_eq_ok {v : Json} {s : Option String} :
    optionalText v = .ok s ↔ v = Json.ofText s := by
  cases v <;> cases s <;> simp [optionalText, Json.ofText, Json.ofOption]

theorem readRequests_eq_ok {fields : List (String × Json)} {requests : List (String × String)} :
    readRequests fields = .ok requests ↔ fields = textFields requests := by
  have entry (e : String × Json) (r : String × String) :
      (do return (e.1, ← requiredText e.2) : Except Fault (String × String)) = .ok r ↔
        e = (r.1, .str r.2) := by
    simp only [bind_eq_ok, requiredText_eq_ok, Prod.ext_iff]
    constructor
    · rintro ⟨text, h, ⟨⟩⟩
      exact ⟨rfl, h⟩
    · rintro ⟨h, h'⟩
      exact ⟨r.2, h', congrArg (fun name => Except.ok (name, r.2)) h⟩
  rw [readRequests, mapM_eq_ok, textFields, ← List.forall₂_eq_eq_eq, List.forall₂_map_right_iff]
  simp only [entry]

theorem typedRequests_eq_ok {fields : List (String × Json)}
    {requests : Option (List (String × String))} :
    typedRequests fields = .ok requests ↔
      fields = textFields (requests.getD []) ∧ (requests = none ↔ fields = []) := by
  cases fields with
  | nil =>
      simp only [typedRequests, iff_true, Except.ok.injEq]
      constructor
      · rintro rfl
        exact ⟨rfl, rfl⟩
      · exact fun h => h.2.symm
  | cons e r =>
      change (some <$> readRequests (e :: r)) = _ ↔ _
      cases requests with
      | none => cases readRequests (e :: r) <;> simp [Functor.map, Except.map]
      | some requests =>
          rw [Option.getD_some, ← readRequests_eq_ok]
          cases readRequests (e :: r) <;> simp [Functor.map, Except.map]

theorem ContainerView.read_eq_ok {shown : ContainerView} {c : Container} :
    shown.read = .ok c ↔ shown.requests = textFields (c.requests.getD []) ∧
      (c.requests = none ↔ shown.requests = []) ∧ shown.name.orElse (.str "") = .str c.name := by
  simp only [ContainerView.read, bind_eq_ok, typedRequests_eq_ok, requiredText_eq_ok]
  constructor
  · rintro ⟨requests, ⟨h, h'⟩, name, hname, ⟨⟩⟩
    exact ⟨h, h', hname⟩
  · rintro ⟨h, h', hname⟩
    exact ⟨_, ⟨h, h'⟩, _, hname, rfl⟩

theorem PodView.read_eq_ok {shown : PodView} {pod : Pod} :
    shown.read = .ok pod ↔ ∃ name ns phase containers,
      shown.name.orElse shown.generateName = Json.ofText name ∧ shown.ns = Json.ofText ns ∧
      shown.phase = Json.ofText phase ∧
      List.Forall₂ (fun view c => ContainerView.read view = .ok c) shown.containers containers ∧
      pod = ⟨some ⟨name, ns, none, none⟩, some containers, some ⟨phase⟩⟩ ∧
      ∃ amounts, pod.requests = .ok amounts := by
  simp only [read, bind_eq_ok, mapM_eq_ok, optionalText_eq_ok]
  constructor
  · rintro ⟨containers, hc, name, hname, ns, hns, phase, hphase, amounts, ha, ⟨⟩⟩
    exact ⟨name, ns, phase, containers, hname, hns, hphase, hc, rfl, amounts, ha⟩
  · rintro ⟨name, ns, phase, containers, hname, hns, hphase, hc, rfl, amounts, ha⟩
    exact ⟨containers, hc, name, hname, ns, hns, phase, hphase, amounts, ha, rfl⟩

/-! ### What is requested -/

/-- A container requests of a resource what its view shows. -/
def Container.Shows (shown : ContainerView) (c : Container) (resource : String) : Prop :=
  (field? resource (c.requests.getD [])).map Json.str = field? resource shown.requests

theorem ContainerView.shows_of_read {shown : ContainerView} {c : Container}
    (h : shown.read = .ok c) (resource : String) : c.Shows shown resource := by
  rw [Container.Shows, (read_eq_ok.mp h).1, field?_textFields]

/-- The resources that are counted. -/
def countedResources : List String := ["cpu", "memory"]

/-- Two containers request the same of the resources that are counted. -/
def Container.RequestsAs (c d : Container) : Prop :=
  ∀ resource ∈ countedResources,
    field? resource (c.requests.getD []) = field? resource (d.requests.getD [])

/-- `Pod.requests` depends on `RequestsAs` of the containers only, by induction on them. -/
theorem Pod.requests_congr {p q : Pod}
    (h : List.Forall₂ Container.RequestsAs p.containers q.containers) :
    p.requests = q.requests := by
  unfold requests
  generalize p.containers = cs, q.containers = ds, Amounts.zero = sum at h
  induction h generalizing sum with
  | nil => rfl
  | @cons c d _ _ same _ ih =>
      have added (resource : String) (hr : resource ∈ countedResources) (x : Decimal) :
          addRequest (c.requests.getD []) resource x =
            addRequest (d.requests.getD []) resource x := by
        rw [addRequest, addRequest, same resource hr]
      have first : c.addTo sum = d.addTo sum := by
        simp only [Container.addTo, added "cpu" (by decide), added "memory" (by decide)]
      simp only [List.foldlM_cons, first, ih]

theorem addRequest_read {requests : List (String × String)} {resource text : String}
    {sum b : Decimal} (h : addRequest requests resource sum = .ok b)
    (ht : field? resource requests = some text) : ∃ x, Quantity.read text = .ok x := by
  rw [addRequest, ht] at h
  obtain ⟨x, hx, _⟩ := bind_eq_ok.mp h
  exact ⟨x, hx⟩

theorem foldlM_addTo_read {cs : List Container} {sum b : Amounts}
    (h : cs.foldlM Container.addTo sum = .ok b) {c : Container} (hc : c ∈ cs) {resource : String}
    (hr : resource ∈ countedResources) {text : String}
    (ht : field? resource (c.requests.getD []) = some text) : ∃ x, Quantity.read text = .ok x := by
  induction cs generalizing sum with
  | nil => cases hc
  | cons d cs ih =>
      rw [List.foldlM_cons] at h
      obtain ⟨next, first, rest⟩ := bind_eq_ok.mp h
      rcases List.mem_cons.mp hc with rfl | hc
      · obtain ⟨cpu, hcpu, first⟩ := bind_eq_ok.mp first
        obtain ⟨memory, hmemory, _⟩ := bind_eq_ok.mp first
        rcases List.mem_pair.mp hr with rfl | rfl
        · exact addRequest_read hcpu ht
        · exact addRequest_read hmemory ht
      · exact ih rest hc

/-! ### Views that agree -/

/-- Two views of containers hold one name and the same requests, in any order. -/
structure ContainerView.Agrees (a b : ContainerView) : Prop where
  name : a.name = b.name
  distinct : Dictionary.Distinct a.requests
  requests : a.requests.Perm b.requests

/-- Two views of pods hold the same texts, and agree on their containers one by one. -/
structure PodView.Agrees (a b : PodView) : Prop where
  name : a.name = b.name
  generateName : a.generateName = b.generateName
  ns : a.ns = b.ns
  phase : a.phase = b.phase
  containers : List.Forall₂ ContainerView.Agrees a.containers b.containers

/-- Two containers are equal up to the order of their requests. -/
structure Container.Alike (c d : Container) : Prop where
  name : c.name = d.name
  requests : Option.Rel List.Perm c.requests d.requests

/-- Two pods are equal up to the order of requests. -/
structure Pod.Alike (p q : Pod) : Prop where
  metadata : p.metadata = q.metadata
  status : p.status = q.status
  containers : List.Forall₂ Container.Alike p.containers q.containers

theorem ContainerView.Agrees.symm {a b : ContainerView} (h : a.Agrees b) : b.Agrees a :=
  ⟨h.name.symm, (h.requests.pairwise_iff fun h => by rwa [BEq.comm]).mp h.distinct,
    h.requests.symm⟩

theorem PodView.Agrees.symm {a b : PodView} (h : a.Agrees b) : b.Agrees a :=
  ⟨h.name.symm, h.generateName.symm, h.ns.symm, h.phase.symm,
    (h.containers.imp fun _ _ => ContainerView.Agrees.symm).flip⟩

/-- Views that agree are read as `Alike` containers that request the same. -/
theorem ContainerView.Agrees.read {a b : ContainerView} (h : a.Agrees b) {c : Container}
    (hc : a.read = .ok c) : ∃ d, b.read = .ok d ∧ c.Alike d ∧ c.RequestsAs d := by
  obtain ⟨fields, given, named⟩ := read_eq_ok.mp hc
  rw [h.name] at named
  have perm := h.requests.symm
  have empty : a.requests = [] ↔ b.requests = [] :=
    ⟨fun e => (e ▸ perm).eq_nil, fun e => (e ▸ perm.symm).eq_nil⟩
  have alike : ∃ d, b.read = .ok d ∧ c.Alike d := by
    rw [empty] at given
    obtain ⟨name, requests⟩ := c
    cases requests with
    | none =>
        exact ⟨⟨name, none⟩, read_eq_ok.mpr ⟨given.mp rfl, given, named⟩, rfl, .none⟩
    | some requests =>
        rw [fields] at perm
        obtain ⟨others, hothers, same⟩ := perm_textFields perm
        exact ⟨⟨name, some others⟩, read_eq_ok.mpr ⟨hothers, by simpa using given, named⟩, rfl,
          .some same.symm⟩
  obtain ⟨d, hd, alike⟩ := alike
  refine ⟨d, hd, alike, fun resource _ => ?_⟩
  have listed := Dictionary.get?_perm h.distinct h.requests resource
  have shown := ((shows_of_read hc resource).trans listed).trans (shows_of_read hd resource).symm
  exact Option.map_injective (fun _ _ => Json.str.inj) shown

theorem PodView.Agrees.read {a b : PodView} (h : a.Agrees b) {p : Pod} (hp : a.read = .ok p) :
    ∃ q, b.read = .ok q ∧ p.Alike q ∧ p.requests = q.requests := by
  obtain ⟨name, ns, phase, containers, hname, hns, hphase, hc, rfl, amounts, ha⟩ :=
    read_eq_ok.mp hp
  obtain ⟨others, hothers, alike⟩ :=
    forall₂_carried h.containers hc fun _ _ _ agrees => agrees.read
  have requests : Pod.requests ⟨some ⟨name, ns, none, none⟩, some containers, some ⟨phase⟩⟩ =
      Pod.requests ⟨some ⟨name, ns, none, none⟩, some others, some ⟨phase⟩⟩ :=
    Pod.requests_congr (alike.imp fun _ _ => And.right)
  refine ⟨_, read_eq_ok.mpr ⟨name, ns, phase, others, ?_, h.ns ▸ hns, h.phase ▸ hphase, hothers,
    rfl, amounts, requests ▸ ha⟩, ⟨rfl, rfl, alike.imp fun _ _ => And.left⟩, requests⟩
  rw [← h.name, ← h.generateName, hname]

/-! ### The pod that is read -/

theorem Pod.isTerminal_of_phase {pod : Pod} {v : Json} (h : v = Json.ofText pod.phase) :
    pod.isTerminal = true ↔ v = .str "Succeeded" ∨ v = .str "Failed" := by
  rw [h, isTerminal]
  cases pod.phase <;> simp [Json.ofText, Json.ofOption, terminalPhases]

/-- The containers of the pod are those of the view, in their order. -/
theorem PodView.containers_of_read {shown : PodView} {pod : Pod} (h : shown.read = .ok pod) :
    List.Forall₂ (fun view c => ContainerView.read view = .ok c) shown.containers
      pod.containers := by
  obtain ⟨_, _, _, _, _, _, _, hc, rfl, _⟩ := read_eq_ok.mp h
  exact hc

/-- `requests` is that of any pod whose containers `Shows` the same values. -/
theorem PodView.requests_of_read {shown : PodView} {pod stored : Pod} (h : shown.read = .ok pod)
    (hs : List.Forall₂
      (fun view c => ∀ resource ∈ countedResources, Container.Shows view c resource)
      shown.containers stored.containers) : pod.requests = stored.requests := by
  have alike : ∀ view c d, ContainerView.read view = .ok c →
      (∀ resource ∈ countedResources, Container.Shows view d resource) →
      ∃ d', c.RequestsAs d' ∧ d = d' := by
    intro view c d hc hd
    refine ⟨d, fun resource hr => Option.map_injective (fun _ _ => Json.str.inj) ?_, rfl⟩
    exact (ContainerView.shows_of_read hc resource).trans (hd resource hr).symm
  obtain ⟨others, same, hothers⟩ := forall₂_carried (containers_of_read h) hs alike
  rw [List.forall₂_eq_eq_eq] at hothers
  exact Pod.requests_congr (hothers ▸ same)

theorem PodView.Agrees.ofJson {a b : PodView} (h : a.Agrees b) {v w : Json}
    (ha : PodView.ofJson v = .ok a) (hb : PodView.ofJson w = .ok b) {p : Pod}
    (hp : Pod.ofJson v = .ok p) :
    ∃ q, Pod.ofJson w = .ok q ∧ p.Alike q ∧ p.requests = q.requests := by
  obtain ⟨a', ha', hread⟩ := Pod.ofJson_eq_ok.mp hp
  obtain rfl : a' = a := Except.ok.inj (ha'.symm.trans ha)
  obtain ⟨q, hq, alike⟩ := h.read hread
  exact ⟨q, Pod.ofJson_eq_ok.mpr ⟨b, hb, hq⟩, alike⟩

/-- In a pod that is read, a counted request is a text on which `Quantity.read` succeeds. -/
theorem Pod.requests_read {v : Json} {pod : Pod} (h : Pod.ofJson v = .ok pod) {items : List Json}
    (hitems : listedContainers v = .ok items) {item : Json} (hitem : item ∈ items)
    {view : ContainerView} (hview : ContainerView.ofJson item = .ok view) {resource : String}
    (hr : resource ∈ countedResources) {value : Json}
    (hvalue : field? resource view.requests = some value) :
    ∃ text x, value = .str text ∧ Quantity.read text = .ok x := by
  obtain ⟨shown, hshown, hread⟩ := Pod.ofJson_eq_ok.mp h
  obtain ⟨items', hitems', hcontainers⟩ := PodView.listed hshown
  obtain rfl : items' = items := Except.ok.inj (hitems'.symm.trans hitems)
  obtain ⟨view', hmem, hview'⟩ := exists_partner (mapM_eq_ok.mp hcontainers) hitem
  obtain rfl : view' = view := Except.ok.inj (hview'.symm.trans hview)
  obtain ⟨c, hc, hread'⟩ := exists_partner (PodView.containers_of_read hread) hmem
  obtain ⟨_, _, _, _, _, _, _, _, _, amounts, ha⟩ := PodView.read_eq_ok.mp hread
  have shows := ContainerView.shows_of_read hread' resource
  rw [Container.Shows, hvalue, Option.map_eq_some_iff] at shows
  obtain ⟨text, htext, rfl⟩ := shows
  obtain ⟨x, hx⟩ := foldlM_addTo_read ha hc hr htext
  exact ⟨text, x, rfl, hx⟩

/-- **Admission reads a pod as enforcement will.** A pod that is read has one container for each one
that is listed, in their order, with its name and its requests; it has ended exactly if its phase
says so; and what it requests is what every typed pod whose containers have these requests does.
Pods whose views agree are both read, as pods that are alike, or neither is. A pod with a request
for cores or memory that is not a quantity is refused, wherever its container stands. -/
theorem ofJson_reads (v : Json) :
    (∀ pod, Pod.ofJson v = .ok pod →
      ∃ items shown, listedContainers v = .ok items ∧ PodView.ofJson v = .ok shown ∧
        items.mapM ContainerView.ofJson = .ok shown.containers ∧
        List.Forall₂ (fun (view : ContainerView) c => view.name.orElse (.str "") = .str c.name ∧
          ∀ resource, Container.Shows view c resource) shown.containers pod.containers ∧
        (pod.isTerminal = true ↔ shown.phase = .str "Succeeded" ∨ shown.phase = .str "Failed") ∧
        ∃ amounts, pod.requests = .ok amounts ∧ ∀ stored : Pod,
          List.Forall₂ (fun view c => ∀ resource ∈ countedResources,
            Container.Shows view c resource) shown.containers stored.containers →
          stored.requests = .ok amounts) ∧
      (∀ w shown shown', PodView.ofJson v = .ok shown → PodView.ofJson w = .ok shown' →
        shown.Agrees shown' →
        (∃ f g, Pod.ofJson v = .error f ∧ Pod.ofJson w = .error g) ∨
          ∃ p q, Pod.ofJson v = .ok p ∧ Pod.ofJson w = .ok q ∧ p.Alike q ∧
            p.requests = q.requests) ∧
      ∀ items item shown resource value, listedContainers v = .ok items → item ∈ items →
        ContainerView.ofJson item = .ok shown → resource ∈ countedResources →
        field? resource shown.requests = some value →
        (∀ text x, value = .str text → Quantity.read text ≠ .ok x) →
        ∃ f, Pod.ofJson v = .error f := by
  refine ⟨fun pod h => ?_, fun w shown shown' hv hw agrees => ?_, ?_⟩
  · obtain ⟨shown, hview, hread⟩ := Pod.ofJson_eq_ok.mp h
    obtain ⟨items, hitems, hcontainers⟩ := PodView.listed hview
    obtain ⟨_, _, phase, _, _, _, hphase, _, rfl, amounts, ha⟩ := PodView.read_eq_ok.mp hread
    refine ⟨items, shown, hitems, hview, hcontainers, ?_, Pod.isTerminal_of_phase hphase, amounts,
      ha, fun stored hs => ?_⟩
    · refine (PodView.containers_of_read hread).imp fun view c hc => ?_
      exact ⟨(ContainerView.read_eq_ok.mp hc).2.2, ContainerView.shows_of_read hc⟩
    · rw [← PodView.requests_of_read hread hs, ha]
  · cases hp : Pod.ofJson v with
    | ok p =>
        obtain ⟨q, hq, alike⟩ := agrees.ofJson hv hw hp
        exact Or.inr ⟨p, q, rfl, hq, alike⟩
    | error f =>
        cases hq : Pod.ofJson w with
        | error g => exact Or.inl ⟨f, g, rfl, rfl⟩
        | ok q =>
            obtain ⟨p, hp', _⟩ := agrees.symm.ofJson hw hv hq
            cases hp.symm.trans hp'
  · intro items item view resource value hitems hitem hview hr hvalue unread
    cases hp : Pod.ofJson v with
    | error f => exact ⟨f, rfl⟩
    | ok pod =>
        obtain ⟨text, x, rfl, hx⟩ := Pod.requests_read hp hitems hitem hview hr hvalue
        exact absurd hx (unread text x rfl)

/-- A pod with a sidecar and the same pod with its requests in another order are read alike; with a
third container that asks for lots of cores the pod is refused. -/
theorem ofJson_reads_sidecar :
    let pod := fun requests more => Json.obj
      [("metadata", .obj [("generateName", .str "web-")]),
        ("spec", .obj [("containers", .arr (
          .obj [("name", .str "app"), ("resources", .obj [("requests", .obj requests)])] ::
            .obj [("name", .str "sidecar")] :: more))])]
    let cpu := ("cpu", Json.str "250m")
    let memory := ("memory", Json.str "64Mi")
    let lots := Json.obj [("resources", .obj [("requests", .obj [("cpu", .str "lots")])])]
    (∃ p q, Pod.ofJson (pod [cpu, memory] []) = .ok p ∧ Pod.ofJson (pod [memory, cpu] []) = .ok q ∧
      p.Alike q ∧ p.requests = q.requests) ∧
      (∃ p, Pod.ofJson (pod [cpu, memory] []) = .ok p ∧ p.containers.length = 2 ∧
        p.isTerminal = false) ∧
      ∃ f, Pod.ofJson (pod [cpu, memory] [lots]) = .error f := by
  intro pod cpu memory lots
  let view (requests : List (String × Json)) : PodView :=
    ⟨.null, .str "web-", .null, .null, [⟨.str "app", requests⟩, ⟨.str "sidecar", []⟩]⟩
  have shown : PodView.ofJson (pod [cpu, memory] []) = .ok (view [cpu, memory]) := rfl
  have swapped : PodView.ofJson (pod [memory, cpu] []) = .ok (view [memory, cpu]) := rfl
  have decoded : Pod.ofJson (pod [cpu, memory] []) =
      .ok ⟨some ⟨some "web-", none, none, none⟩, some [⟨"app", some [("cpu", "250m"),
        ("memory", "64Mi")]⟩, ⟨"sidecar", none⟩], some ⟨none⟩⟩ :=
    eq_ok_of_toOption (by decide +kernel)
  have agrees : (view [cpu, memory]).Agrees (view [memory, cpu]) :=
    ⟨rfl, rfl, rfl, rfl, .cons ⟨rfl, by simp [Dictionary.Distinct, cpu, memory], .swap _ _ _⟩
      (.cons ⟨rfl, .nil, .nil⟩ .nil)⟩
  have unread : ∀ x, Quantity.read "lots" ≠ .ok x := by
    intro x h
    have none : (Quantity.read "lots").toOption = .none := by decide +kernel
    rw [h] at none
    cases none
  obtain ⟨accepted, alike, _⟩ := ofJson_reads (pod [cpu, memory] [])
  refine ⟨?_, ⟨_, decoded, rfl, ?_⟩, ?_⟩
  · rcases alike _ _ _ shown swapped agrees with ⟨f, _, failed, _⟩ | read
    · cases failed.symm.trans decoded
    · exact read
  · obtain ⟨_, _, _, hview, _, _, ended, _⟩ := accepted _ decoded
    cases shown.symm.trans hview
    simpa [view] using ended
  · refine (ofJson_reads (pod [cpu, memory] [lots])).2.2 _ lots ⟨.null, [("cpu", .str "lots")]⟩
      "cpu" (.str "lots") rfl (by simp) rfl (by decide) rfl ?_
    rintro _ x ⟨⟩
    exact unread x

end QuotaWarden
