import QuotaWarden.Proofs.CacheChanges
import QuotaWarden.Proofs.FailOpen

/-! # The decision on a candidate

A pod whose requests are moderate where they can be read is read, or fails with a fault that lets it
in (`Pod.ofJson_moderate`). With moderate pods its requests add up (`Usage.projected_ok`), and a
usage that can be written is decided on, with a `Usage.DenialText` for the first limit that is
exceeded (`Usage.decide_of_writable`). -/

namespace QuotaWarden

open Number

/-! ### Pods with moderate requests -/

/-- What a container requests of cores and bytes is less than `10 ^ k` where it can be read. -/
def Container.ReadsBelow (k : Int) (c : Container) : Prop :=
  ∀ resource ∈ ["cpu", "memory"], ∀ text, field? resource (c.requests.getD []) = some text →
    ∀ x, Quantity.read text = .ok x → x.Below k

section

variable {k : Int} (hk : 0 ≤ k) (hmax : usageSize k ≤ Context.working.maxExponent)

include hk hmax

theorem addRequest_reads {requests : List (String × String)} {resource : String} {sum : Decimal}
    (h : ∀ text, field? resource requests = some text →
      ∀ x, Quantity.read text = .ok x → x.Below k) (hs : sum.Summed (podSize k)) :
    Ends (fun z => z.Summed (podSize k) ∧ ∀ text, field? resource requests = some text →
      ∃ x, Quantity.read text = .ok x ∧ x.Below k) Fault.LetsIn
      (addRequest requests resource sum) := by
  by_cases read : ∀ text, field? resource requests = some text → ∃ x, Quantity.read text = .ok x
  · have moderate : ∀ text, field? resource requests = some text →
        ∃ x, Quantity.read text = .ok x ∧ x.Below k := by
      intro text ht
      obtain ⟨x, hx⟩ := read text ht
      exact ⟨x, hx, h text ht x hx⟩
    obtain ⟨z, hz, hsum⟩ := addRequest_ok hk hmax moderate hs
    rw [hz]
    exact ⟨hsum, moderate⟩
  · push Not at read
    obtain ⟨text, ht, unread⟩ := read
    have ends := Quantity.read_ends text
    unfold addRequest
    rw [ht]
    cases hx : Quantity.read text with
    | ok x => exact absurd hx (unread x)
    | error f =>
        dsimp only
        rw [hx] at ends ⊢
        exact (ends : Fault.LetsIn f)

theorem Container.addTo_reads {c : Container} (h : c.ReadsBelow k) {sum : Amounts}
    (hs : sum.Summed (podSize k)) :
    Ends (fun b => b.Summed (podSize k) ∧ c.RequestsBelow k) Fault.LetsIn (c.addTo sum) := by
  refine (addRequest_reads hk hmax (h "cpu" (by simp)) hs.cpu).bind fun cpu hcpu => ?_
  refine (addRequest_reads hk hmax (h "memory" (by simp)) hs.memory).bind fun memory hmemory => ?_
  refine ⟨⟨hcpu.1, hmemory.1⟩, ?_⟩
  simp only [Container.RequestsBelow, List.forall_mem_cons]
  exact ⟨hcpu.2, hmemory.2, by simp⟩

/-- Requests that `ReadsBelow k` are summed up, or one of them fails, by induction on the
containers. -/
theorem foldlM_addTo_reads {cs : List Container} (h : ∀ c ∈ cs, c.ReadsBelow k) {sum : Amounts}
    (hs : sum.Summed (podSize k)) :
    Ends (fun _ => ∀ c ∈ cs, c.RequestsBelow k) Fault.LetsIn (cs.foldlM Container.addTo sum) := by
  induction cs generalizing sum with
  | nil => exact fun c hc => absurd hc List.not_mem_nil
  | cons c cs ih =>
      rw [List.forall_mem_cons] at h
      rw [List.foldlM_cons]
      refine (Container.addTo_reads hk hmax h.1 hs).bind fun b hb => ?_
      exact (ih h.2 hb.1).mono (fun _ hcs => List.forall_mem_cons.mpr ⟨hb.2, hcs⟩) fun _ => id

/-- A pod whose containers `ReadsBelow k` is read with requests below `10 ^ k`, or `LetsIn`. -/
theorem Pod.ofJson_moderate {v : Json}
    (h : ∀ items, listedContainers v = .ok items → ∀ item ∈ items, ∀ c,
      Container.ofJson item = .ok c → c.ReadsBelow k) :
    Ends (fun pod => ∀ c ∈ pod.containers, c.RequestsBelow k) Fault.LetsIn (Pod.ofJson v) := by
  refine Pod.ofJson_ends_of (P := fun cs => ∀ c ∈ cs, c.RequestsBelow k) (fun _ => id)
    fun items containers listed read => ?_
  refine foldlM_addTo_reads hk hmax (fun c hc => ?_) (Amounts.summed_zero (podSize k))
  obtain ⟨item, hitem, hread⟩ := mem_of_mapM_ok read hc
  exact h items listed item hitem c hread

end

/-! ### Decisions -/

/-- What a denial for a reason says: what is exceeded, the amount and the limit. -/
inductive Usage.DenialText (u : Usage) (p : Policy) : Reason → String → Prop
  | pods {amount limit : String} : writeCount u.pods = .ok amount →
      writeCount p.maxPods = .ok limit →
      DenialText u p .pods ("maxPods exceeded: " ++ amount ++ " > " ++ limit)
  | cpu {amount limit : String} : Quantity.writeCpu u.cpu = .ok amount →
      Quantity.writeCpu p.maxCpu = .ok limit →
      DenialText u p .cpu ("cpu exceeded: " ++ amount ++ " > " ++ limit)
  | memory {amount limit : String} : Quantity.writeMemory u.memory = .ok amount →
      Quantity.writeMemory p.maxMemory = .ok limit →
      DenialText u p .memory ("memory exceeded: " ++ amount ++ " > " ++ limit)

theorem Usage.denialText_of_decide {u : Usage} {p : Policy} {d : Decision}
    (h : u.decide p = .ok d) (hd : d.allowed = false) : u.DenialText p d.reason d.message := by
  unfold decide at h
  split at h
  · obtain ⟨amount, ha, h⟩ := bind_eq_ok.mp h
    obtain ⟨limit, hl, h⟩ := bind_eq_ok.mp h
    obtain rfl := Except.ok.inj h
    exact .pods ha hl
  obtain ⟨overCpu, _, h⟩ := bind_eq_ok.mp h
  cases overCpu with
  | true =>
      obtain ⟨amount, ha, h⟩ := bind_eq_ok.mp h
      obtain ⟨limit, hl, h⟩ := bind_eq_ok.mp h
      obtain rfl := Except.ok.inj h
      exact .cpu ha hl
  | false =>
      obtain ⟨overMemory, _, h⟩ := bind_eq_ok.mp h
      cases overMemory with
      | true =>
          obtain ⟨amount, ha, h⟩ := bind_eq_ok.mp h
          obtain ⟨limit, hl, h⟩ := bind_eq_ok.mp h
          obtain rfl := Except.ok.inj h
          exact .memory ha hl
      | false =>
          obtain rfl := Except.ok.inj h
          cases hd

theorem Judged.not_exceeds {u : Usage} {p : Policy} {v : Verdict} (h : Judged u p v)
    (hv : v.violated = false) (r : Reason) : ¬ u.Exceeds p r := by
  obtain ⟨within, under, below⟩ := h.respected hv
  intro hr
  cases r with
  | none => exact hr
  | pods => simp [countExceeds_iff.mpr hr] at within
  | cpu => simp [exceeds_iff.mpr hr] at under
  | memory => simp [exceeds_iff.mpr hr] at below

/-- `Usage.decide` succeeds where amounts are `Writable`; a denial is about the `FirstExceeded`
limit. -/
theorem Usage.decide_of_writable {u : Usage} {p : Policy} (count : u.pods.natAbs < tenTo digitLimit)
    (cpu : u.cpu.Writable) (memory : u.memory.Writable) (hp : p.Writable) :
    ∃ d, u.decide p = .ok d ∧ (d.allowed = true ∧ (∀ r, ¬ u.Exceeds p r) ∨
      d.allowed = false ∧ ∃ r, u.FirstExceeded p r ∧ u.DenialText p r d.message) := by
  obtain ⟨v, hv, rfl, judged⟩ := evaluate_of_writable count cpu memory hp
  have alike := decide_alike v.usage p
  rw [hv] at alike
  cases hd : v.usage.decide p with
  | error f =>
      rw [hd] at alike
      exact absurd alike id
  | ok d =>
      rw [hd] at alike
      obtain ⟨hreason, hallowed, _, _⟩ := alike
      refine ⟨d, rfl, ?_⟩
      cases hviolated : v.violated with
      | false => exact Or.inl ⟨by simp [hallowed, hviolated], judged.not_exceeds hviolated⟩
      | true =>
          have denied : d.allowed = false := by simp [hallowed, hviolated]
          refine Or.inr ⟨denied, d.reason, ?_, denialText_of_decide hd denied⟩
          rw [hreason]
          exact judged.firstExceeded hviolated

/-- `projected` succeeds on requests below `10 ^ digitLimit`. -/
theorem Usage.projected_ok {pods : List Pod} {candidate : Pod}
    (h : ∀ q ∈ livePods pods, ∀ c ∈ q.containers, c.RequestsBelow digitLimit)
    (hc : ∀ c ∈ candidate.containers, c.RequestsBelow digitLimit) :
    ∃ u, projected pods candidate = .ok u ∧ u.toAmounts.Summed (usageSize digitLimit) ∧
      0 ≤ u.pods := by
  obtain ⟨u, hu, hsum, hcount⟩ := ofPods_summed (by decide) (by decide) h
  obtain ⟨v, hv, hsum', hcount'⟩ := withPod_ok (by decide) (by decide) hc hsum
  refine ⟨v, ?_, hsum', by omega⟩
  rw [projected, hu]
  exact hv

end QuotaWarden
