import QuotaWarden.Proofs.EvictionSafety
import QuotaWarden.Proofs.WrittenTexts

/-! # A violation has a victim

Where no pod is live nothing is used, and no limit that is set is exceeded. So a violation comes
with a live pod, and the choice for its reason finds one.

An enforcement provides for a violation without a victim: it gives up with a message of its own.
`EnforcementOptions.insisting` breaks off there instead. On any cluster an enforcement goes the same
way with it (`enforceRounds_insisting`), and each verdict that it gives is one on pods of a listing
(`enforceRounds_verdict`), which never has that message: the provision is not used.

`violation_has_victim` puts them together. -/

namespace QuotaWarden

variable {p : Policy} {v : Verdict} {pods : List Pod}

/-! ### Choices -/

theorem victim_of_violated (hv : verdictOn p pods = .ok v) (hviolated : v.violated = true) :
    selectVictim pods v.reason ≠ .ok none :=
  selectVictim_ne_none (livePods_of_violated hv hviolated) (Verdict.violated_iff.mp hviolated)

/-- Enforcing with a fault where the choice of a victim comes out empty. -/
def EnforcementOptions.insisting (f : Fault) (o : EnforcementOptions) : EnforcementOptions :=
  { o with
    choose := fun pods r =>
      match o.choose pods r with
      | .ok none => .error f
      | found => found }

theorem insisting_choose {o : EnforcementOptions} {r : Reason} (h : o.choose pods r ≠ .ok none)
    (f : Fault) : (o.insisting f).choose pods r = o.choose pods r := by
  unfold EnforcementOptions.insisting
  dsimp only
  split
  · next hnone => exact absurd hnone h
  · rfl

theorem message_of_verdictOn (h : verdictOn p pods = .ok v) : v.message ≠ noVictimMessage := by
  intro hmessage
  obtain ⟨u, _, evaluated⟩ := bind_eq_ok.mp h
  rcases (Usage.evaluate_cases evaluated).2.2 with hnone | ⟨front, hfront, rest, htold⟩
  · rw [hnone] at hmessage
    exact absurd hmessage (by decide)
  · have first : (front ++ rest).toList.head? = some 'v' := by rw [← htold, hmessage]; rfl
    simp only [List.mem_cons, List.not_mem_nil, or_false] at hfront
    rcases hfront with rfl | rfl | rfl <;> simp at first

/-! ### Enforcements -/

section

variable {σ τ : Type} [ClusterApi σ] [TimeScale τ] {ns : Json} {o : EnforcementOptions}

/-- `insisting f` changes no enforcement, by induction on the deletes that are left. -/
theorem enforceRounds_insisting (hc : o.choose = selectVictim) (f : Fault) (left round : Nat)
    (last : Option Refusal) (s : Site σ τ) :
    enforceRounds (o.insisting f) ns p left round last s =
      enforceRounds o ns p left round last s := by
  induction left generalizing round last s with
  | zero => rfl
  | succ left ih =>
      rcases he : evaluateNamespace ns p s with ⟨_ | ⟨v, pods⟩, t⟩
      · rw [enforceRounds, enforceRounds, Act.bind_of_error he, Act.bind_of_error he]
      cases hviolated : v.violated with
      | false => simp [enforceRounds, Act.bind_of_ok he, hviolated]
      | true =>
          have found : o.choose pods v.reason ≠ .ok none := by
            rw [hc]
            exact victim_of_violated (verdictOn_of_evaluateNamespace he) hviolated
          have alike := insisting_choose found f
          cases hq : o.choose pods v.reason with
          | error g =>
              rw [enforceRounds_unchosen o left round last he hviolated hq,
                enforceRounds_unchosen _ left round last he hviolated (alike.trans hq)]
          | ok choice =>
              cases choice with
              | none => exact absurd hq found
              | some victim =>
                  have later : roundsAfter (o.insisting f) ns p left round =
                      (roundsAfter o ns p left round : Attempt → Act (Site σ τ) Verdict) := by
                    funext attempt
                    cases attempt with
                    | deleted => exact funext fun t => ih (round + 1) none t
                    | refused r => exact funext fun t => ih (round + 1) (some r) t
                  rw [enforceRounds_chosen o left round last he hviolated hq,
                    enforceRounds_chosen _ left round last he hviolated (alike.trans hq), later]
                  rfl

/-- An enforcement gives `verdictOn` of a listing, by induction on the deletes that are left. -/
theorem enforceRounds_verdict (hc : o.choose = selectVictim) {left round : Nat}
    {last : Option Refusal} {s t : Site σ τ}
    (h : enforceRounds o ns p left round last s = (.ok v, t)) :
    ∃ pods, verdictOn p pods = .ok v := by
  induction left generalizing round last s with
  | zero =>
      obtain ⟨⟨verdict, pods⟩, t', he, h⟩ := Act.bind_eq_ok.mp h
      have hv := verdictOn_of_evaluateNamespace he
      cases hviolated : verdict.violated with
      | false =>
          simp only [hviolated] at h
          obtain rfl := Except.ok.inj (Prod.mk.inj h).1
          exact ⟨pods, hv⟩
      | true =>
          cases last with
          | some r => simp [hviolated] at h
          | none =>
              simp only [hviolated] at h
              obtain ⟨_, _, _, h⟩ := Act.bind_eq_ok.mp h
              obtain rfl := Except.ok.inj (Prod.mk.inj h).1
              exact ⟨pods, hv⟩
  | succ left ih =>
      rcases he : evaluateNamespace ns p s with ⟨_ | ⟨verdict, pods⟩, t'⟩
      · rw [enforceRounds, Act.bind_of_error he] at h
        cases h
      have hv := verdictOn_of_evaluateNamespace he
      cases hviolated : verdict.violated with
      | false =>
          simp [enforceRounds, Act.bind_of_ok he, hviolated] at h
          exact ⟨pods, h.1 ▸ hv⟩
      | true =>
          cases hq : o.choose pods verdict.reason with
          | error g =>
              rw [enforceRounds_unchosen o left round last he hviolated hq] at h
              cases h
          | ok choice =>
              cases choice with
              | none =>
                  rw [hc] at hq
                  exact absurd hq (victim_of_violated hv hviolated)
              | some victim =>
                  rw [enforceRounds_chosen o left round last he hviolated hq] at h
                  split at h
                  · obtain rfl := Except.ok.inj (Prod.mk.inj h).1
                    exact ⟨pods, hv⟩
                  · obtain ⟨attempt, _, _, h⟩ := Act.bind_eq_ok.mp h
                    cases attempt with
                    | deleted => exact ih h
                    | refused r => exact ih h

/-- **A violation has a victim.** If the usage of some pods violates a policy, the choice for the
reason picks a pod of the list that has not ended, provided that the pods have metadata. So an
enforcement on any cluster never gives up for want of a victim: it goes the same way if it were to
break off there with any fault, and no verdict that it gives has that message. -/
theorem violation_has_victim (p : Policy) (o : EnforcementOptions) (hc : o.choose = selectVictim)
    (ns : Json) :
    (∀ pods v, (∀ q ∈ pods, q.metadata ≠ none) → verdictOn p pods = .ok v → v.violated = true →
      ∃ victim ∈ pods, victim.isTerminal = false ∧
        selectVictim pods v.reason = .ok (some victim)) ∧
    (∀ f (s : Site σ τ), enforce (o.insisting f) ns p s = enforce o ns p s) ∧
    ∀ (s t : Site σ τ) v, enforce o ns p s = (.ok v, t) → v.message ≠ noVictimMessage := by
  refine ⟨?_, fun f s => enforceRounds_insisting hc f _ _ _ s, ?_⟩
  · intro pods v hm hv hviolated
    obtain ⟨victim, hlive, hselect, _⟩ := selectVictim_ok
      (fun q hq => hm q (mem_livePods.mp hq).1) (livePods_of_violated hv hviolated)
      (Verdict.violated_iff.mp hviolated)
    obtain ⟨hmem, hrunning⟩ := mem_livePods.mp hlive
    exact ⟨victim, hmem, hrunning, hselect⟩
  · intro s t v h
    obtain ⟨pods, hv⟩ := enforceRounds_verdict hc h
    exact message_of_verdictOn hv

end

/-- Two pods, one of which requests cores without bound. -/
def boundless : List Pod :=
  [⟨some ⟨some "web", some "team-a", none, none⟩, some [⟨"app", some [("cpu", "Infinity")]⟩], none⟩,
    ⟨some ⟨some "worker", some "team-a", none, none⟩, none, none⟩]

/-- Both pods are shown again after a delete: there is a victim, and the violation that is left is
told in other words than those for a missing victim. -/
theorem violation_has_victim_boundless :
    let o : EnforcementOptions := ⟨false, 1, true, selectVictim⟩
    let s : Site Oracle Float := ⟨⟨fun _ => .ok boundless, fun _ => none, []⟩, 0, [], .zero⟩
    (∃ v, verdictOn onePod boundless = .ok v ∧ v.violated = true ∧
      ∃ victim ∈ boundless, selectVictim boundless v.reason = .ok (some victim)) ∧
    (∀ f, enforce (o.insisting f) (.str "team-a") onePod s =
      enforce o (.str "team-a") onePod s) ∧
    ∃ v t, enforce o (.str "team-a") onePod s = (.ok v, t) ∧ v.violated = true ∧
      v.message ≠ noVictimMessage := by
  intro o s
  obtain ⟨victims, alike, told⟩ :=
    violation_has_victim (σ := Oracle) (τ := Float) onePod o rfl (.str "team-a")
  refine ⟨?_, fun f => alike f s, ?_⟩
  · have judged : (verdictOn onePod boundless).toOption.map Verdict.violated = some true := by
      decide +kernel
    obtain ⟨v, hv, hviolated⟩ := Option.map_eq_some_iff.mp judged
    have hv := eq_ok_of_toOption hv
    obtain ⟨victim, hmem, _, hselect⟩ := victims boundless v (by decide) hv hviolated
    exact ⟨v, hv, hviolated, victim, hmem, hselect⟩
  · have ended : (enforce o (.str "team-a") onePod s).1.toOption.map Verdict.violated =
        some true := by
      decide +kernel
    obtain ⟨v, hv, hviolated⟩ := Option.map_eq_some_iff.mp ended
    have e : enforce o (.str "team-a") onePod s = (.ok v, _) :=
      Prod.ext (eq_ok_of_toOption hv) rfl
    exact ⟨v, _, e, hviolated, told s _ v e⟩

end QuotaWarden
