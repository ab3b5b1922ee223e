import QuotaWarden.Cluster.InMemory
import QuotaWarden.Proofs.CacheChanges
import QuotaWarden.Proofs.ClusterCalls

/-! # Calls of a cluster in memory

* `InMemory.after_effect` says what each call may do to a cluster in memory, so what can be seen of
  it are `InMemory.views`, and it lists for a namespace only what lives in it (`InMemory.listsOwn`).
* Two clusters in memory that `Agree` on a namespace answer alike within it
  (`InMemory.Agree.answersAlike`). -/

namespace QuotaWarden.InMemory

variable {ns : String} {policy : Option Json} {c c' : InMemory}

/-! ### The effect of a call -/

/-- What a call may do to the objects and the events of a cluster in memory. -/
inductive Effect : ClusterCall → InMemory → InMemory → Prop
  | nothing {call c c'} : c'.pods = c.pods → c'.policies = c.policies → c'.events = c.events →
      Effect call c c'
  | deleted {ns name grace c c'} :
      c'.pods = Dictionary.erase ⟨.ofText ns, .ofText name⟩ c.pods →
      c'.policies = c.policies → c'.events = c.events → Effect (.deletePod ns name grace) c c'
  | patched {ns name body c c'} {k : ObjectKey} {v : Json} : keyOf ns name = .ok k →
      c'.pods = c.pods → c'.policies = Dictionary.set k v c.policies → c'.events = c.events →
      Effect (.patchStatus ns name body) c c'
  | noted {e c c'} : c'.pods = c.pods → c'.policies = c.policies → c'.events = c.events ++ [e] →
      Effect (.createEvent e) c c'

theorem Effect.of_deletes {call : ClusterCall} {c c' : InMemory}
    {deletes : List (Option String × Option String × Int)}
    (h : Effect call { c with deletes := deletes } c') : Effect call c c' := by
  cases h with
  | nothing hpods hpolicies hevents => exact .nothing hpods hpolicies hevents
  | deleted hpods hpolicies hevents => exact .deleted hpods hpolicies hevents
  | patched hk hpods hpolicies hevents => exact .patched hk hpods hpolicies hevents
  | noted hpods hpolicies hevents => exact .noted hpods hpolicies hevents

theorem begin_cases (kind : ApiCall) (script : List (ApiCall × List ScriptedOutcome)) :
    ∃ r left, ∀ c : InMemory, c.script = script →
      begin kind c = (r, { c with script := left }) := by
  cases hg : Dictionary.get? kind script with
  | none =>
      refine ⟨.ok (), script, ?_⟩
      rintro c rfl
      simp [begin, hg]
  | some outcomes =>
      cases outcomes with
      | nil =>
          refine ⟨.ok (), script, ?_⟩
          rintro c rfl
          simp [begin, hg]
      | cons outcome r =>
          refine ⟨outcome.fault.elim (.ok ()) .error,
            if outcome.lasting then script else Dictionary.set kind r script, ?_⟩
          rintro c rfl
          cases hl : outcome.lasting <;> cases hf : outcome.fault <;>
            simp [begin, hg, hl, hf, setScript]

/-- The `Effect` of a call is that of what follows `begin`. -/
theorem effect_begin {α : Type} {call : ClusterCall} (kind : ApiCall) {f : Unit → Act InMemory α}
    {c : InMemory} (hf : ∀ script, Effect call c (f () { c with script := script }).2) :
    Effect call c ((begin kind >>= f) c).2 := by
  obtain ⟨r, script, e⟩ := begin_cases kind c.script
  rw [Act.bind_apply, e c rfl]
  cases r with
  | ok x => exact hf script
  | error f => exact .nothing rfl rfl rfl

theorem after_effect (call : ClusterCall) (c : InMemory) : Effect call c (call.after c) := by
  cases call with
  | listPods ns => exact effect_begin .listPods fun script => .nothing rfl rfl rfl
  | listAllPods => exact effect_begin .listAllPods fun script => .nothing rfl rfl rfl
  | listNamespaces =>
      refine effect_begin .listNamespaces fun script => ?_
      rw [Act.bind_apply, Act.state_apply]
      dsimp only
      rw [Act.bind_apply, Act.lift_apply]
      cases c.namespaces.mapM optionalText <;> exact .nothing rfl rfl rfl
  | listPolicies => exact effect_begin .listPolicies fun script => .nothing rfl rfl rfl
  | deletePod ns name grace =>
      refine Effect.of_deletes (effect_begin .deletePod fun script => ?_)
      rw [Act.bind_apply, Act.state_apply]
      dsimp only
      cases Dictionary.has ⟨.ofText ns, .ofText name⟩ c.pods with
      | false => exact .nothing rfl rfl rfl
      | true =>
          cases c.ignoresDeletes with
          | true => exact .nothing rfl rfl rfl
          | false => exact .deleted rfl rfl rfl
  | getPolicy ns name =>
      refine effect_begin .getPolicy fun script => ?_
      rw [Act.bind_apply, Act.lift_apply]
      cases keyOf ns name with
      | error f => exact .nothing rfl rfl rfl
      | ok k =>
          dsimp only
          rw [Act.bind_apply, Act.state_apply]
          dsimp only
          cases Dictionary.get? k c.policies <;> exact .nothing rfl rfl rfl
  | patchStatus ns name body =>
      refine effect_begin .patchStatus fun script => ?_
      rw [Act.bind_apply, Act.lift_apply]
      cases hk : keyOf ns name with
      | error f => exact .nothing rfl rfl rfl
      | ok k =>
          dsimp only
          rw [Act.bind_apply, Act.state_apply]
          dsimp only
          cases Dictionary.get? k c.policies with
          | none => exact .nothing rfl rfl rfl
          | some v => exact .patched hk rfl rfl rfl
  | createEvent e => exact effect_begin .createEvent fun script => .noted rfl rfl rfl

theorem ofText_beq_iff {s t : Option String} : (Key.ofText s == Key.ofText t) = true ↔ s = t := by
  constructor
  · intro h
    cases s with
    | some s => cases t <;> simp_all [Key.ofText]
    | none => cases t <;> simp_all [Key.ofText, Key.beq_iff, Key.plain]
  · rintro rfl
    exact BEq.refl _

theorem keyOf_beq_text {ns name : Json} {k : ObjectKey} (hk : keyOf ns name = .ok k)
    {n m : String} (h : (⟨.text n, .text m⟩ : ObjectKey) == k) : ns = .str n ∧ name = .str m := by
  rw [ObjectKey.beq_iff, Key.text_beq_iff, Key.text_beq_iff] at h
  unfold keyOf at hk
  cases hn : Key.ofJson ns with
  | error f => simp [hn, bind, Except.bind] at hk
  | ok kn =>
      cases hm : Key.ofJson name with
      | error f => simp [hn, hm, bind, Except.bind] at hk
      | ok km =>
          simp only [hn, hm, bind, Except.bind, pure, Except.pure, Except.ok.injEq] at hk
          subst hk
          dsimp only at h
          rw [h.1] at hn
          rw [h.2] at hm
          exact ⟨Key.ofJson_eq_text hn, Key.ofJson_eq_text hm⟩

/-- A cluster in memory shows its objects by their keys. -/
def views : ClusterViews InMemory where
  pod ns name c := Dictionary.get? ⟨.ofText ns, .ofText name⟩ c.pods
  policy ns name c := Dictionary.get? ⟨.text ns, .text name⟩ c.policies
  events ns c := c.events.filter fun e => e.ns == ns
  pod_after call c ns name h := by
    cases after_effect call c with
    | deleted hpods _ _ =>
        rw [hpods, Dictionary.get?_erase, if_neg]
        rw [ObjectKey.beq_iff, ofText_beq_iff, ofText_beq_iff]
        rintro ⟨rfl, rfl⟩
        exact h _ rfl
    | nothing hpods _ _ => rw [hpods]
    | patched _ hpods _ _ => rw [hpods]
    | noted hpods _ _ => rw [hpods]
  policy_after call c ns name h := by
    cases after_effect call c with
    | @patched n m body _ _ k v hk _ hpolicies _ =>
        rw [hpolicies, Dictionary.get?_set, if_neg]
        intro hkey
        obtain ⟨rfl, rfl⟩ := keyOf_beq_text hk hkey
        exact h body rfl
    | nothing _ hpolicies _ => rw [hpolicies]
    | deleted _ hpolicies _ => rw [hpolicies]
    | noted _ hpolicies _ => rw [hpolicies]
  events_after call c ns h := by
    cases after_effect call c with
    | @noted e _ _ _ _ hevents =>
        have he : (e.ns == ns) = false := by
          rw [beq_eq_false_iff_ne]
          exact fun hn => h e hn rfl
        rw [hevents, List.filter_append]
        simp [he]
    | nothing _ _ hevents => rw [hevents]
    | deleted _ _ hevents => rw [hevents]
    | patched _ _ _ hevents => rw [hevents]

theorem mem_of_mem_afterAll {e : ObjectKey × Pod} {calls : List ClusterCall} {c : InMemory}
    (h : e ∈ (afterAll calls c).pods) : e ∈ c.pods := by
  induction calls generalizing c with
  | nil => exact h
  | cons call r ih =>
      have left : e ∈ (call.after c).pods := ih h
      cases after_effect call c with
      | nothing hpods _ _ => rwa [hpods] at left
      | deleted hpods _ _ =>
          rw [hpods] at left
          exact Dictionary.mem_of_mem_erase left
      | patched _ hpods _ _ => rwa [hpods] at left
      | noted hpods _ _ => rwa [hpods] at left

/-- `InMemory` lists pods of `ns` only, if the pods name the namespaces of their keys. -/
theorem listsOwn {c : InMemory}
    (h : ∀ e ∈ c.pods, e.1.ns.toJson.same (.str ns) = true →
      e.2.metadata.bind (·.ns) = some ns) : ListsOwn ns policy c := by
  intro calls _ pods listed q hq
  obtain ⟨r, script, e⟩ := begin_cases .listPods (afterAll calls c).script
  have shown : (listPods (.str ns) (afterAll calls c)).1 = .ok pods := listed
  unfold listPods at shown
  rw [Act.bind_apply, e _ rfl] at shown
  cases r with
  | error f => cases shown
  | ok _ =>
      obtain rfl : (afterAll calls c).podsIn (.str ns) = pods := Except.ok.inj shown
      obtain ⟨entry, hentry, rfl⟩ := List.mem_map.mp hq
      obtain ⟨hmem, hns⟩ := List.mem_filter.mp hentry
      exact h entry (mem_of_mem_afterAll hmem) hns

/-! ### Clusters that agree on a namespace -/

/-- Two clusters have the same pods and policies in a namespace, and the same is to come of their
calls. -/
structure Agree (ns : String) (c c' : InMemory) : Prop where
  pods : (c'.pods.filter fun e => e.1.ns == .text ns) = c.pods.filter fun e => e.1.ns == .text ns
  policies : ∀ name, Dictionary.get? (⟨.text ns, name⟩ : ObjectKey) c'.policies =
    Dictionary.get? ⟨.text ns, name⟩ c.policies
  script : c'.script = c.script
  ignoresDeletes : c'.ignoresDeletes = c.ignoresDeletes

theorem same_text (k : Key) (s : String) : k.toJson.same (.str s) = (k == .text s) := by
  cases k with
  | text t => simp [Key.toJson]
  | _ =>
      rw [BEq.comm, Bool.eq_iff_iff, Key.text_beq_iff]
      simp [Key.toJson, Json.same, Json.number?]

theorem get?_filter_ns (name : Key) (pods : List (ObjectKey × Pod)) :
    Dictionary.get? (⟨.text ns, name⟩ : ObjectKey) (pods.filter fun e => e.1.ns == .text ns) =
      Dictionary.get? ⟨.text ns, name⟩ pods := by
  induction pods with
  | nil => rfl
  | cons e r ih =>
      rw [List.filter_cons, Dictionary.get?]
      cases hns : e.1.ns == .text ns with
      | true => rw [if_pos rfl, Dictionary.get?, ih]
      | false =>
          have apart : ¬ (e.1 == (⟨.text ns, name⟩ : ObjectKey)) = true :=
            fun h => absurd (ObjectKey.beq_iff.mp h).1 (by simp [hns])
          rw [if_neg Bool.false_ne_true, if_neg apart, ih]

namespace Agree

theorem podsIn (h : Agree ns c c') : c'.podsIn (.str ns) = c.podsIn (.str ns) := by
  unfold InMemory.podsIn
  simp only [same_text, h.pods]

theorem has (h : Agree ns c c') (name : Key) :
    Dictionary.has (⟨.text ns, name⟩ : ObjectKey) c'.pods =
      Dictionary.has ⟨.text ns, name⟩ c.pods := by
  unfold Dictionary.has
  rw [← get?_filter_ns, h.pods, get?_filter_ns]

theorem begin_tracks (kind : ApiCall) :
    Tracks (Agree ns) (fun _ => True) (begin kind) (begin kind) := by
  intro c c' h
  obtain ⟨r, script, e⟩ := begin_cases kind c.script
  rw [e c rfl, e c' h.script]
  exact ⟨⟨h.pods, h.policies, rfl, h.ignoresDeletes⟩, rfl, fun _ _ => trivial⟩

theorem keyOf_tracks (name : Json) :
    Tracks (Agree ns) (fun k => ∃ j, k = ⟨.text ns, j⟩)
      (Act.lift (keyOf (.str ns) name)) (Act.lift (keyOf (.str ns) name)) := by
  refine Tracks.lift _ fun k hk => ?_
  have e : keyOf (.str ns) name = Key.ofJson name >>= fun j => pure ⟨.text ns, j⟩ := rfl
  rw [e] at hk
  cases hj : Key.ofJson name with
  | error f => simp [hj, bind, Except.bind] at hk
  | ok j =>
      rw [hj] at hk
      exact ⟨j, (Except.ok.inj hk).symm⟩

theorem listPods_tracks :
    Tracks (Agree ns) (fun _ => True) (listPods (.str ns)) (listPods (.str ns)) := by
  refine Tracks.bind (begin_tracks .listPods) fun _ _ => Tracks.read fun c c' h => ?_
  rw [h.podsIn]
  exact Tracks.pure trivial

theorem deletePod_tracks (name : Option String) (grace : Int) :
    Tracks (Agree ns) (fun _ => True)
      (deletePod (some ns) name grace) (deletePod (some ns) name grace) := by
  have noted : Tracks (Agree ns) (fun _ => True)
      (Act.change fun c => { c with deletes := c.deletes ++ [(some ns, name, grace)] })
      (Act.change fun c => { c with deletes := c.deletes ++ [(some ns, name, grace)] }) :=
    Tracks.change fun c c' h => ⟨h.pods, h.policies, h.script, h.ignoresDeletes⟩
  refine Tracks.bind noted fun _ _ => Tracks.bind (begin_tracks .deletePod) fun _ _ => ?_
  refine Tracks.read fun c c' h => ?_
  have found : Dictionary.has (⟨.ofText (some ns), .ofText name⟩ : ObjectKey) c'.pods =
      Dictionary.has ⟨.ofText (some ns), .ofText name⟩ c.pods := h.has (.ofText name)
  dsimp only
  rw [found, h.ignoresDeletes]
  cases Dictionary.has ⟨.ofText (some ns), .ofText name⟩ c.pods with
  | false => exact Tracks.fail _
  | true =>
      cases c.ignoresDeletes with
      | true => exact Tracks.pure trivial
      | false =>
          refine Tracks.change fun c c' h => ⟨?_, h.policies, h.script, h.ignoresDeletes⟩
          unfold erasePod Dictionary.erase
          rw [List.filter_comm, h.pods, List.filter_comm]

theorem getPolicy_tracks (name : Json) :
    Tracks (Agree ns) (fun _ => True) (getPolicy (.str ns) name) (getPolicy (.str ns) name) := by
  refine Tracks.bind (begin_tracks .getPolicy) fun _ _ => Tracks.bind (keyOf_tracks name) ?_
  rintro _ ⟨j, rfl⟩
  refine Tracks.read fun c c' h => ?_
  rw [h.policies]
  split
  · exact Tracks.pure trivial
  · exact Tracks.fail _

theorem patchStatus_tracks (name body : Json) :
    Tracks (Agree ns) (fun _ => True)
      (patchStatus (.str ns) name body) (patchStatus (.str ns) name body) := by
  refine Tracks.bind (begin_tracks .patchStatus) fun _ _ => Tracks.bind (keyOf_tracks name) ?_
  rintro _ ⟨j, rfl⟩
  refine Tracks.read fun c c' h => ?_
  rw [h.policies]
  split
  · exact Tracks.fail _
  · refine Tracks.bind (Tracks.change fun c c' h => ?_) fun _ (_ : True) => Tracks.pure trivial
    refine ⟨h.pods, fun name => ?_, h.script, h.ignoresDeletes⟩
    rw [Dictionary.get?_set, Dictionary.get?_set, h.policies]

theorem createEvent_tracks (e : ClusterEvent) :
    Tracks (Agree ns) (fun _ => True) (createEvent e) (createEvent e) := by
  refine Tracks.bind (begin_tracks .createEvent) fun _ _ => ?_
  refine Tracks.bind (Tracks.change fun c c' h => ?_) fun _ (_ : True) => Tracks.pure trivial
  exact ⟨h.pods, h.policies, h.script, h.ignoresDeletes⟩

theorem run_tracks {call : ClusterCall} (h : call.Within ns policy) :
    Tracks (Agree ns) (fun _ => True) (call.run (σ := InMemory)) call.run := by
  cases call with
  | listPods n =>
      obtain rfl : n = .str ns := h
      exact listPods_tracks
  | deletePod n name grace =>
      obtain rfl : n = some ns := h
      exact deletePod_tracks name grace
  | getPolicy n name =>
      obtain ⟨rfl, _⟩ : n = .str ns ∧ policy = some name := h
      exact getPolicy_tracks name
  | patchStatus n name body =>
      obtain ⟨rfl, _⟩ : n = .str ns ∧ policy = some name := h
      exact patchStatus_tracks name body
  | createEvent e => exact createEvent_tracks e
  | listAllPods => exact h.elim
  | listNamespaces => exact h.elim
  | listPolicies => exact h.elim

theorem afterAll (h : Agree ns c c') {calls : List ClusterCall} (hc : AllWithin ns policy calls) :
    Agree ns (QuotaWarden.afterAll calls c) (QuotaWarden.afterAll calls c') := by
  induction calls generalizing c c' with
  | nil => exact h
  | cons call r ih =>
      have first := (run_tracks (hc call List.mem_cons_self) c c' h).1
      exact ih first fun other ho => hc other (List.mem_cons_of_mem _ ho)

/-- Clusters that `Agree ns` are `AnswersAlike`. -/
theorem answersAlike (h : Agree ns c c') : AnswersAlike ns policy c c' :=
  fun _ within _ hc => (run_tracks hc _ _ (h.afterAll within)).2.1

end Agree

end QuotaWarden.InMemory
