import QuotaWarden.Proofs.ClusterCalls
import QuotaWarden.Proofs.PolicyReading
import QuotaWarden.Webhook.Http

/-! # What a request does to a cluster

`ListsOnly` is all that a request does to a cluster, one lemma for each function on the way from the
body to the listing (`respond_listsOnly`). -/

namespace QuotaWarden

variable {σ τ : Type} [ClusterApi σ]

/-- All that becomes of a cluster is that it lists the pods of a namespace once, if it is asked at
all. -/
inductive ListsOnly (c : σ) : σ → Prop
  | unasked : ListsOnly c c
  | asked (ns : Json) : ListsOnly c ((ClusterCall.listPods ns).after c)

theorem ListsOnly.pod {c c' : σ} (h : ListsOnly c c') (views : ClusterViews σ)
    (ns name : Option String) : views.pod ns name c' = views.pod ns name c := by
  cases h with
  | unasked => rfl
  | asked n => exact views.pod_after (.listPods n) c ns name nofun

theorem decideUnder_cluster (p : Policy) (ns : Json) (pod : Pod) (s : Site σ τ) :
    (decideUnder p ns pod s).2.cluster = (ClusterCall.listPods ns).after s.cluster := by
  unfold decideUnder
  rw [Act.bind_apply, Act.attempt_apply]
  dsimp only
  cases (Site.call (ClusterApi.listPods ns) s).1 with
  | error f => rfl
  | ok pods =>
      dsimp only
      rw [Act.bind_apply, Act.lift_apply]
      cases (do (← Usage.ofPods pods).withPod pod : Except Fault Usage) with
      | error f => rfl
      | ok u =>
          dsimp only
          rw [Act.bind_apply, Act.lift_apply]
          cases u.decide p with
          | error f => rfl
          | ok d => cases hd : d.allowed <;> simp [hd, Act.bind_apply, Site.tally, Site.say] <;> rfl

omit [ClusterApi σ] in
theorem governingPolicy?_cluster (c : WatchCache) (ns : Json) (s : Site σ τ) :
    (governingPolicy? c ns s).2.cluster = s.cluster := by
  obtain ⟨notes, h⟩ := governingPolicy?_journaled c ns s
  rw [h]

theorem decideAdmission_listsOnly (policies : WatchCache) (ns : Json) (pod : Pod) (s : Site σ τ) :
    ListsOnly s.cluster (decideAdmission policies ns pod s).2.cluster := by
  have governing := governingPolicy?_cluster policies ns s
  unfold decideAdmission
  rw [Act.bind_apply]
  generalize governingPolicy? policies ns s = found at governing ⊢
  obtain ⟨r, t⟩ := found
  rw [← governing]
  cases r with
  | error f => exact .unasked
  | ok found =>
      cases found with
      | none => exact .unasked
      | some p =>
          change ListsOnly t.cluster (decideUnder p ns pod { t with metrics := _ }).2.cluster
          rw [decideUnder_cluster]
          exact .asked ns

theorem reviewPod_listsOnly (policies : WatchCache) (review : List (String × Json)) (uid ns : Json)
    (pod : Pod) (s : Site σ τ) :
    ListsOnly s.cluster (reviewPod policies review uid ns pod s).2.cluster := by
  have lists := decideAdmission_listsOnly policies ns pod s
  unfold reviewPod
  rw [Act.bind_apply]
  generalize decideAdmission policies ns pod s = result at lists ⊢
  obtain ⟨r, t⟩ := result
  cases r with
  | error f => exact lists
  | ok d => cases hd : d.allowed <;> simpa [hd] using lists

theorem reviewRequest_listsOnly (policies : WatchCache) (review : List (String × Json)) (v : Json)
    (s : Site σ τ) : ListsOnly s.cluster (reviewRequest policies review v s).2.cluster := by
  unfold reviewRequest
  rw [Act.bind_apply, Act.lift_apply]
  cases mapping v with
  | error f => exact .unasked
  | ok fields =>
      dsimp only
      rw [Act.bind_apply, Act.lift_apply]
      cases givenMapping (Json.ofOption (field? "kind" fields)) with
      | error f => exact .unasked
      | ok kind =>
          dsimp only
          split
          · exact .unasked
          · cases Pod.ofJson ((Json.ofOption (field? "object" fields)).orElse (.obj [])) with
            | error f =>
                dsimp only
                split <;> exact .unasked
            | ok pod => exact reviewPod_listsOnly policies review _ _ pod s

theorem validate_listsOnly (policies : WatchCache) (body : List UInt8) (s : Site σ τ) :
    ListsOnly s.cluster (validate policies body s).2.cluster := by
  unfold validate
  cases Json.readBytes bodyLimits body with
  | error e => cases e <;> exact .unasked
  | ok v =>
      dsimp only
      cases requestOf v with
      | none => exact .unasked
      | some given => exact reviewRequest_listsOnly policies given.1 given.2 s

/-- `respond` makes no call but `listPods`. -/
theorem respond_listsOnly (app : HttpApp) (r : HttpRequest) (o : Operator σ τ) :
    ListsOnly o.site.cluster (respond app r o).2.site.cluster := by
  have answered : ∀ page : HttpPage,
      ListsOnly o.site.cluster (answerPage page r.body o).2.site.cluster := by
    intro page
    cases page with
    | validate => exact validate_listsOnly o.policies r.body o.site
    | _ => exact .unasked
  unfold respond
  split
  · exact .unasked
  · next page _ =>
      split
      · exact .unasked
      · have lists := answered page
        split
        · next hr => rwa [hr] at lists
        · next hr => rwa [hr] at lists

end QuotaWarden
