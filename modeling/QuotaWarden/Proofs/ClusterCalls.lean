import QuotaWarden.ClusterApi

/-! # Calls of a cluster

The calls of `ClusterApi` as data, so that runs can be told by the calls that they make.

* `ClusterCall.reply` and `ClusterCall.after` are what a cluster answers to a call and what becomes
  of it, whether the call fails or not; `afterAll` is what becomes of it in the course of several
  calls.
* `ClusterCall.Within` are the calls that stay within a namespace and one of its policies.
* `Recorded` is a cluster that writes down its calls, and is the same cluster otherwise.
* `Tracks` relates two actions that keep two states in step and come out alike, with one rule for
  each way in which actions are put together.
* `ClusterViews` is what can be seen of a cluster, with what each call may change of it. Calls
  within a namespace change nothing elsewhere (`ClusterViews.pod_elsewhere` and those after it). -/

namespace QuotaWarden

variable {σ σ' : Type} [ClusterApi σ] [ClusterApi σ'] {ns : String} {policy : Option Json}

/-- A call of the API of a cluster. -/
inductive ClusterCall where
  | listPods (ns : Json)
  | listAllPods
  | listNamespaces
  | listPolicies
  | deletePod (ns name : Option String) (grace : Int)
  | getPolicy (ns name : Json)
  | patchStatus (ns name body : Json)
  | createEvent (e : ClusterEvent)

namespace ClusterCall

/-- The type of what a call gives. -/
abbrev Reply : ClusterCall → Type
  | listPods _ => List Pod
  | listAllPods => ApiObject
  | listNamespaces => NamespaceList
  | listPolicies => ApiObject
  | deletePod _ _ _ => Unit
  | getPolicy _ _ => Json
  | patchStatus _ _ _ => Json
  | createEvent _ => ClusterEvent

/-- Makes a call. -/
def run : (call : ClusterCall) → Act σ call.Reply
  | listPods ns => ClusterApi.listPods ns
  | listAllPods => ClusterApi.listAllPods
  | listNamespaces => ClusterApi.listNamespaces
  | listPolicies => ClusterApi.listPolicies
  | deletePod ns name grace => ClusterApi.deletePod ns name grace
  | getPolicy ns name => ClusterApi.getPolicy ns name
  | patchStatus ns name body => ClusterApi.patchStatus ns name body
  | createEvent e => ClusterApi.createEvent e

/-- What a cluster answers to a call. -/
def reply (call : ClusterCall) (c : σ) : Except Fault call.Reply := (call.run c).1

/-- What becomes of a cluster in the course of a call. -/
def after (call : ClusterCall) (c : σ) : σ := (call.run c).2

/-- What work on a namespace may ask of a cluster: to list the pods of the namespace, to delete some
of them, to read and patch one of its policies, and to take events about it. -/
def Within (ns : String) (policy : Option Json) : ClusterCall → Prop
  | listPods n => n = .str ns
  | deletePod n _ _ => n = some ns
  | getPolicy n name => n = .str ns ∧ policy = some name
  | patchStatus n name _ => n = .str ns ∧ policy = some name
  | createEvent e => e.ns = some ns
  | listAllPods | listNamespaces | listPolicies => False

end ClusterCall

/-- What becomes of a cluster in the course of some calls. -/
def afterAll (calls : List ClusterCall) (c : σ) : σ := calls.foldl (fun c call => call.after c) c

theorem afterAll_append (calls later : List ClusterCall) (c : σ) :
    afterAll (calls ++ later) c = afterAll later (afterAll calls c) := List.foldl_append

theorem afterAll_concat (calls : List ClusterCall) (call : ClusterCall) (c : σ) :
    afterAll (calls ++ [call]) c = call.after (afterAll calls c) := afterAll_append calls [call] c

/-- Calls that all stay within a namespace and one of its policies. -/
def AllWithin (ns : String) (policy : Option Json) (calls : List ClusterCall) : Prop :=
  ∀ call ∈ calls, call.Within ns policy

theorem AllWithin.concat {calls : List ClusterCall} (h : AllWithin ns policy calls)
    {call : ClusterCall} (hc : call.Within ns policy) : AllWithin ns policy (calls ++ [call]) := by
  intro c hmem
  rcases List.mem_append.mp hmem with hmem | hmem
  · exact h c hmem
  · rwa [List.mem_singleton.mp hmem]

/-- Two clusters answer alike within a namespace: after the same calls within it they give the same
answer to the next one. -/
def AnswersAlike (ns : String) (policy : Option Json) (c : σ) (c' : σ') : Prop :=
  ∀ calls, AllWithin ns policy calls → ∀ call : ClusterCall, call.Within ns policy →
    call.reply (afterAll calls c') = call.reply (afterAll calls c)

theorem AnswersAlike.symm {c : σ} {c' : σ'} (h : AnswersAlike ns policy c c') :
    AnswersAlike ns policy c' c := fun calls within call hc => (h calls within call hc).symm

theorem AnswersAlike.trans {σ'' : Type} [ClusterApi σ''] {c : σ} {c' : σ'} {c'' : σ''}
    (h : AnswersAlike ns policy c c') (h' : AnswersAlike ns policy c' c'') :
    AnswersAlike ns policy c c'' := fun calls within call hc =>
  (h' calls within call hc).trans (h calls within call hc)

/-- The listings of a namespace show only pods that live in it, whatever is done within it. -/
def ListsOwn (ns : String) (policy : Option Json) (c : σ) : Prop :=
  ∀ calls, AllWithin ns policy calls → ∀ pods,
    (ClusterCall.listPods (.str ns)).reply (afterAll calls c) = .ok pods →
      ∀ q ∈ pods, q.metadata.bind (·.ns) = some ns

theorem ListsOwn.of_alike {c : σ} {c' : σ'} (h : ListsOwn ns policy c)
    (alike : AnswersAlike ns policy c c') : ListsOwn ns policy c' := by
  intro calls within pods listed
  rw [alike calls within (.listPods (.str ns)) rfl] at listed
  exact h calls within pods listed

/-! ### Recorded clusters -/

/-- A cluster with the calls that it was asked, the first one first. -/
structure Recorded (σ : Type) where
  cluster : σ
  calls : List ClusterCall

namespace Recorded

/-- Makes a call and writes it down. -/
def ask (call : ClusterCall) : Act (Recorded σ) call.Reply := fun c =>
  (call.reply c.cluster, ⟨call.after c.cluster, c.calls ++ [call]⟩)

instance : ClusterApi (Recorded σ) where
  listPods ns := ask (.listPods ns)
  listAllPods := ask .listAllPods
  listNamespaces := ask .listNamespaces
  listPolicies := ask .listPolicies
  deletePod ns name grace := ask (.deletePod ns name grace)
  getPolicy ns name := ask (.getPolicy ns name)
  patchStatus ns name body := ask (.patchStatus ns name body)
  createEvent e := ask (.createEvent e)

theorem run_eq (call : ClusterCall) (c : Recorded σ) : call.run c = ask call c := by
  cases call <;> rfl

/-- A `Recorded` cluster takes the calls and writes them down. -/
theorem afterAll_eq (calls : List ClusterCall) (c : Recorded σ) :
    afterAll calls c = ⟨afterAll calls c.cluster, c.calls ++ calls⟩ := by
  induction calls generalizing c with
  | nil => simp [afterAll]
  | cons call r ih =>
      have first : call.after c = ⟨call.after c.cluster, c.calls ++ [call]⟩ :=
        congrArg Prod.snd (run_eq call c)
      simpa [afterAll, first] using ih (call.after c)

theorem answersAlike (c : σ) (calls : List ClusterCall) :
    AnswersAlike ns policy c (⟨c, calls⟩ : Recorded σ) := by
  intro made _ call _
  rw [afterAll_eq]
  exact congrArg Prod.fst (run_eq call _)

end Recorded

/-! ### Actions side by side -/

section tracks

variable {S T α β : Type} {R : S → T → Prop} {P P' : α → Prop} {Q : β → Prop}

/-- From related states two actions lead to related states and come out alike, with a value of a
kind unless they fail. -/
def Tracks (R : S → T → Prop) (P : α → Prop) (a : Act S α) (b : Act T α) : Prop :=
  ∀ s t, R s t → R (a s).2 (b t).2 ∧ (b t).1 = (a s).1 ∧ ∀ x, (a s).1 = .ok x → P x

namespace Tracks

variable {a : Act S α} {b : Act T α}

theorem weaken (h : Tracks R P a b) (hp : ∀ x, P x → P' x) : Tracks R P' a b := by
  intro s t hst
  obtain ⟨hr, he, hx⟩ := h s t hst
  exact ⟨hr, he, fun x e => hp x (hx x e)⟩

theorem lift (r : Except Fault α) (h : ∀ x, r = .ok x → P x) :
    Tracks R P (Act.lift r) (Act.lift r) := fun _ _ hst => ⟨hst, rfl, h⟩

theorem pure {x : α} (h : P x) : Tracks R P (Pure.pure x) (Pure.pure x) := by
  refine lift (.ok x) ?_
  rintro y ⟨⟩
  exact h

theorem fail (f : Fault) : Tracks R P (Act.fail f) (Act.fail f) := lift (.error f) nofun

theorem bind {f : α → Act S β} {g : α → Act T β} (h : Tracks R P a b)
    (hf : ∀ x, P x → Tracks R Q (f x) (g x)) : Tracks R Q (a >>= f) (b >>= g) := by
  intro s t hst
  obtain ⟨hr, he, hp⟩ := h s t hst
  rw [Act.bind_apply, Act.bind_apply]
  rcases ha : a s with ⟨r, s'⟩
  rcases hb : b t with ⟨r', t'⟩
  rw [ha, hb] at hr he
  rw [ha] at hp
  obtain rfl : r' = r := he
  cases r' with
  | ok x => exact hf x (hp x rfl) s' t' hr
  | error e => exact ⟨hr, rfl, nofun⟩

theorem read {f : S → Act S β} {g : T → Act T β} (h : ∀ s t, R s t → Tracks R Q (f s) (g t)) :
    Tracks R Q (Act.state >>= f) (Act.state >>= g) := fun s t hst => h s t hst s t hst

theorem change {f : S → S} {g : T → T} (h : ∀ s t, R s t → R (f s) (g t)) :
    Tracks R (fun _ => True) (Act.change f) (Act.change g) :=
  fun s t hst => ⟨h s t hst, rfl, fun _ _ => trivial⟩

theorem attempt (h : Tracks R P a b) :
    Tracks R (fun r => ∀ x, r = .ok x → P x) (Act.attempt a) (Act.attempt b) := by
  intro s t hst
  obtain ⟨hr, he, hp⟩ := h s t hst
  refine ⟨hr, congrArg Except.ok he, ?_⟩
  rintro r ⟨⟩
  exact hp

theorem map {f : α → β} (h : Tracks R P a b) (hf : ∀ x, P x → Q (f x)) :
    Tracks R Q (f <$> a) (f <$> b) := h.bind fun x hx => pure (hf x hx)

end Tracks

end tracks

/-! ### What can be seen of a cluster -/

/-- What can be seen of a cluster: its pods and policies by namespace and name, and the events about
a namespace. A call changes what it is about, and nothing else. -/
structure ClusterViews (σ : Type) [ClusterApi σ] where
  pod : Option String → Option String → σ → Option Pod
  policy : String → String → σ → Option Json
  events : Option String → σ → List ClusterEvent
  pod_after : ∀ (call : ClusterCall) (c : σ) ns name, (∀ grace, call ≠ .deletePod ns name grace) →
    pod ns name (call.after c) = pod ns name c
  policy_after : ∀ (call : ClusterCall) (c : σ) ns name,
    (∀ body, call ≠ .patchStatus (.str ns) (.str name) body) →
    policy ns name (call.after c) = policy ns name c
  events_after : ∀ (call : ClusterCall) (c : σ) ns,
    (∀ e, e.ns = ns → call ≠ .createEvent e) → events ns (call.after c) = events ns c

namespace ClusterViews

theorem afterAll_kept {α : Type} {view : σ → α} {calls : List ClusterCall}
    (h : ∀ call ∈ calls, ∀ c, view (call.after c) = view c) (c : σ) :
    view (afterAll calls c) = view c := by
  induction calls generalizing c with
  | nil => rfl
  | cons call r ih =>
      rw [List.forall_mem_cons] at h
      exact (ih h.2 (call.after c)).trans (h.1 c)

variable (views : ClusterViews σ) {calls : List ClusterCall}

/-- Calls that are `AllWithin ns` leave the pods of other namespaces as they are. -/
theorem pod_elsewhere (h : AllWithin ns policy calls) {other : Option String}
    (ho : other ≠ some ns) (name : Option String) (c : σ) :
    views.pod other name (afterAll calls c) = views.pod other name c := by
  refine afterAll_kept (fun call hmem c => views.pod_after call c other name ?_) c
  rintro grace rfl
  exact ho (h _ hmem)

theorem policy_elsewhere (h : AllWithin ns policy calls) {other name : String}
    (ho : other ≠ ns ∨ policy ≠ some (.str name)) (c : σ) :
    views.policy other name (afterAll calls c) = views.policy other name c := by
  refine afterAll_kept (fun call hmem c => views.policy_after call c other name ?_) c
  rintro body rfl
  obtain ⟨hn, hname⟩ : Json.str other = .str ns ∧ policy = some (.str name) := h _ hmem
  exact ho.elim (fun ho => ho (Json.str.inj hn)) fun ho => ho hname

theorem events_elsewhere (h : AllWithin ns policy calls) {other : Option String}
    (ho : other ≠ some ns) (c : σ) :
    views.events other (afterAll calls c) = views.events other c := by
  refine afterAll_kept (fun call hmem c => views.events_after call c other ?_) c
  rintro e hn rfl
  exact ho (hn.symm.trans (h _ hmem))

end ClusterViews

end QuotaWarden
