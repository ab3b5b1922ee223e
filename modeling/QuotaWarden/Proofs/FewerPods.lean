import QuotaWarden.Proofs.AdmissionAgreement
import QuotaWarden.Proofs.ExactUsage
import QuotaWarden.Proofs.RoundedSums

/-! # Fewer pods use no more

The usage of a list of pods is a sum of sums, each rounded. With requests that are at least zero, a
list with some of its pods left out uses no more of anything, whatever rounding does on the way.

* `Pod.RequestsNonneg`: what a pod requests can be read, and is at least zero. Then its requests are
  sums as rounding leaves them, or they overflow (`Usage.ofPods_ends`).
* `sumPods_mono`: of two running sums the one that begins lower, with pods left out, ends no higher.
* `exceeds_implied`: a limit that is respected by an amount is respected by a smaller one.

`usage_mono` puts them together. -/

namespace QuotaWarden

/-! ### Requests that are at least zero -/

/-- What a container requests of a resource can be read, and is at least zero. -/
def Container.RequestsNonneg (r : Resource) (c : Container) : Prop :=
  ∃ x, c.requested r = .ok x ∧ x.isFinite = true ∧ 0 ≤ x.value

/-- What the containers of a pod request can be read, and is at least zero. -/
def Pod.RequestsNonneg (p : Pod) : Prop := ∀ c ∈ p.containers, ∀ r, c.RequestsNonneg r

/-- Both amounts are sums as rounding leaves them. -/
def Amounts.AreSums (a : Amounts) : Prop := ∀ r, (a.of r).IsSum .working

/-- The fault of a sum that is too large. -/
def Fault.IsOverflow (f : Fault) : Prop := f = .signal .overflow

theorem Amounts.areSums_zero : Amounts.zero.AreSums := fun r => by
  cases r <;> exact Decimal.isSum_zero

theorem digits_pos : 0 < Context.working.digits := by decide

theorem liftSignal_add_ends {s x : Decimal} (hs : s.IsSum .working) (hx : x.isFinite = true)
    (hx0 : 0 ≤ x.value) :
    Ends (·.IsSum .working) Fault.IsOverflow (liftSignal (Decimal.add .working s x)) := by
  rcases hs.add digits_pos hx hx0 with ⟨z, hz, hsum⟩ | overflows
  · rw [hz]
    exact hsum
  · rw [overflows]
    exact rfl

theorem addRequest_sums {r : Resource} {c : Container} (hc : c.RequestsNonneg r) {s : Decimal}
    (hs : s.IsSum .working) :
    Ends (·.IsSum .working) Fault.IsOverflow (addRequest (c.requests.getD []) r.name s) := by
  obtain ⟨x, hread, hx, hx0⟩ := hc
  unfold Container.requested at hread
  unfold addRequest
  cases h : field? r.name (c.requests.getD []) with
  | none => exact hs
  | some text =>
      rw [h] at hread
      dsimp only at hread ⊢
      rw [hread]
      exact liftSignal_add_ends hs hx hx0

theorem sumRequests_sums {r : Resource} {cs : List Container} (h : ∀ c ∈ cs, c.RequestsNonneg r)
    {s : Decimal} (hs : s.IsSum .working) :
    Ends (·.IsSum .working) Fault.IsOverflow (sumRequests r cs s) :=
  Ends.foldlM_keeps (fun c hc _ hs => addRequest_sums (h c hc) hs) hs

theorem Pod.requests_sums {p : Pod} (h : p.RequestsNonneg) :
    Ends Amounts.AreSums Fault.IsOverflow p.requests := by
  refine Ends.foldlM_keeps (fun c hc a ha => ?_) Amounts.areSums_zero
  refine (addRequest_sums (h c hc .cpu) (ha .cpu)).bind fun cpu hcpu => ?_
  refine (addRequest_sums (h c hc .memory) (ha .memory)).bind fun memory hmemory => ?_
  exact Resource.forall_iff.mpr ⟨hcpu, hmemory⟩

theorem Amounts.add_sums {a b : Amounts} (ha : a.AreSums) (hb : b.AreSums) :
    Ends Amounts.AreSums Fault.IsOverflow (liftSignal (a.add b)) := by
  have added (r : Resource) := (ha r).add digits_pos (hb r).isFinite (hb r).nonneg
  simp only [Resource.forall_iff, of] at added
  unfold add
  rcases added with ⟨⟨cpu, hcpu, cpuSum⟩ | overflows, memory⟩
  · rw [hcpu]
    rcases memory with ⟨memory, hmemory, memorySum⟩ | overflows
    · rw [hmemory]
      exact Resource.forall_iff.mpr ⟨cpuSum, memorySum⟩
    · rw [overflows]
      exact rfl
  · rw [overflows]
    exact rfl

theorem Usage.withPod_sums {u : Usage} (hu : u.AreSums) {p : Pod} (hp : p.RequestsNonneg) :
    Ends (fun v : Usage => v.AreSums) Fault.IsOverflow (u.withPod p) := by
  refine (Pod.requests_sums hp).bind fun a ha => ?_
  exact (Amounts.add_sums hu ha).bind fun _ h => h

/-- **`Usage.ofPods` gives sums or overflows** for requests of at least zero. -/
theorem Usage.ofPods_ends {pods : List Pod} (h : ∀ p ∈ livePods pods, p.RequestsNonneg) :
    Ends (fun u : Usage => u.AreSums) Fault.IsOverflow (Usage.ofPods pods) := by
  rw [Usage.ofPods_eq]
  exact Ends.foldlM_keeps (fun p hp _ hu => Usage.withPod_sums hu (h p hp)) Amounts.areSums_zero

/-! ### Sums over fewer pods -/

/-- What a pod requests of a resource, added to a sum. -/
def addPod (r : Resource) (s : Decimal) (p : Pod) : Except Fault Decimal := do
  let x ← sumRequests r p.containers 0
  liftSignal (Decimal.add .working s x)

/-- `addPod` gives no less than `s`, and no more from a lower `t`. -/
theorem addPod_step {r : Resource} {p : Pod} (hp : p.RequestsNonneg) {s s' : Decimal}
    (hs : s.IsSum .working) (h : addPod r s p = .ok s') :
    s'.IsSum .working ∧ s.value ≤ s'.value ∧
      ∀ {t : Decimal}, t.IsSum .working → t.value ≤ s.value →
        ∃ t', addPod r t p = .ok t' ∧ t'.IsSum .working ∧ t'.value ≤ s'.value := by
  obtain ⟨x, hx, added⟩ := bind_eq_ok.mp h
  rw [liftSignal_eq_ok] at added
  have requests := sumRequests_sums (fun c hc => hp c hc r) Decimal.isSum_zero
  rw [hx] at requests
  have finite : x.isFinite = true := Decimal.IsSum.isFinite requests
  have nonneg : 0 ≤ x.value := Decimal.IsSum.nonneg requests
  obtain ⟨_, same, hsum, _⟩ := hs.add_le_add digits_pos finite nonneg hs le_rfl added
  obtain rfl := Except.ok.inj (same.symm.trans added)
  refine ⟨hsum, hs.le_add digits_pos finite nonneg added, fun ht hle => ?_⟩
  obtain ⟨t', added', result⟩ := hs.add_le_add digits_pos finite nonneg ht hle added
  exact ⟨t', bind_eq_ok.mpr ⟨x, hx, liftSignal_eq_ok.mpr added'⟩, result⟩

/-- `sumPods` of a sublist from a lower start gives no more, by induction on the sublist. -/
theorem sumPods_mono {r : Resource} {qs pods : List Pod} (hsub : qs.Sublist pods)
    (h : ∀ p ∈ pods, p.RequestsNonneg) {s t s' : Decimal} (hs : s.IsSum .working)
    (ht : t.IsSum .working) (hle : t.value ≤ s.value) (hsum : sumPods r pods s = .ok s') :
    ∃ t', sumPods r qs t = .ok t' ∧ t'.IsSum .working ∧ t'.value ≤ s'.value := by
  change pods.foldlM (addPod r) s = _ at hsum
  change ∃ t', qs.foldlM (addPod r) t = _ ∧ _
  induction hsub generalizing s t with
  | slnil =>
      obtain rfl := Except.ok.inj hsum
      exact ⟨t, rfl, ht, hle⟩
  | cons p _ ih =>
      rw [List.forall_mem_cons] at h
      rw [List.foldlM_cons] at hsum
      obtain ⟨next, step, rest⟩ := bind_eq_ok.mp hsum
      obtain ⟨hnext, above, _⟩ := addPod_step h.1 hs step
      exact ih h.2 hnext ht (hle.trans above) rest
  | cons_cons p _ ih =>
      rw [List.forall_mem_cons] at h
      rw [List.foldlM_cons] at hsum ⊢
      obtain ⟨next, step, rest⟩ := bind_eq_ok.mp hsum
      obtain ⟨hnext, _, lower⟩ := addPod_step h.1 hs step
      obtain ⟨next', step', hnext', hle'⟩ := lower ht hle
      obtain ⟨t', rest', result⟩ := ih h.2 hnext hnext' hle' rest
      exact ⟨t', bind_eq_ok.mpr ⟨next', step', rest'⟩, result⟩

/-! ### Limits -/

/-- Two tests fail alike, or both come out and the second one holds if the first one does. -/
def Implied {ε : Type} (first second : Except ε Bool) : Prop :=
  (∃ e, first = .error e ∧ second = .error e) ∨
    ∃ a b, first = .ok a ∧ second = .ok b ∧ (a = true → b = true)

section

variable {x y : Decimal} (hx : x.isFinite = true) (hy : y.isFinite = true) (hle : x.value ≤ y.value)

include hx hy hle

theorem lt_implied (limit : Decimal) : Implied (Decimal.lt limit x) (Decimal.lt limit y) := by
  cases limit with
  | finite n g =>
      obtain ⟨a, ha⟩ := Decimal.lt_ok (x := .finite n g) rfl hx
      obtain ⟨b, hb⟩ := Decimal.lt_ok (x := .finite n g) rfl hy
      refine Or.inr ⟨a, b, ha, hb, ?_⟩
      rintro rfl
      have below := (Decimal.lt_eq_ok_true rfl hx).mp ha
      have := (Decimal.lt_eq_ok_true rfl hy).mpr (below.trans_le hle)
      exact Except.ok.inj (hb.symm.trans this)
  | infinite negative =>
      obtain ⟨c, e, rfl, _⟩ := Decimal.eq_finite hx
      obtain ⟨d, f, rfl, _⟩ := Decimal.eq_finite hy
      exact Or.inr ⟨_, _, rfl, rfl, id⟩
  | quietNaN => cases x <;> cases y <;> exact Or.inl ⟨_, rfl, rfl⟩
  | signalingNaN => cases x <;> cases y <;> exact Or.inl ⟨_, rfl, rfl⟩

theorem exceeds_implied (limit : Decimal) : Implied (exceeds x limit) (exceeds y limit) := by
  unfold exceeds
  cases Decimal.lt 0 limit with
  | error s => exact Or.inl ⟨_, rfl, rfl⟩
  | ok set =>
      cases set with
      | false => exact Or.inr ⟨false, false, rfl, rfl, id⟩
      | true =>
          rcases lt_implied hx hy hle limit with ⟨s, hs, hs'⟩ | ⟨a, b, ha, hb, implied⟩
          · exact Or.inl ⟨.signal s, by rw [hs]; rfl, by rw [hs']; rfl⟩
          · exact Or.inr ⟨a, b, by rw [ha]; rfl, by rw [hb]; rfl, implied⟩

end

/-- One usage is at most another one: in the number of pods, and in each amount. -/
structure Usage.AtMost (v u : Usage) : Prop where
  pods : v.pods ≤ u.pods
  finite : ∀ r, (v.of r).isFinite = true ∧ (u.of r).isFinite = true
  amounts : ∀ r, (v.of r).value ≤ (u.of r).value

namespace Usage.AtMost

variable {u v : Usage} (h : v.AtMost u)

include h

theorem implied (r : Resource) (limit : Decimal) :
    Implied (QuotaWarden.exceeds (v.of r) limit) (QuotaWarden.exceeds (u.of r) limit) :=
  exceeds_implied (h.finite r).1 (h.finite r).2 (h.amounts r) limit

theorem exceeds {p : Policy} {r : Reason} (hv : v.Exceeds p r) : u.Exceeds p r := by
  have amount {limit : Decimal} (r : Resource)
      (hv : Decimal.lt 0 limit = .ok true ∧ Decimal.lt limit (v.of r) = .ok true) :
      Decimal.lt 0 limit = .ok true ∧ Decimal.lt limit (u.of r) = .ok true := by
    rw [← exceeds_iff] at hv ⊢
    rcases h.implied r limit with ⟨f, hf, _⟩ | ⟨a, b, ha, hb, implied⟩
    · cases hf.symm.trans hv
    · rw [hb, implied (Except.ok.inj (ha.symm.trans hv))]
  cases r with
  | none => exact hv
  | pods => exact ⟨hv.1, hv.2.trans_le h.pods⟩
  | cpu => exact amount .cpu hv
  | memory => exact amount .memory hv

theorem compliant {p : Policy} {w : Verdict} (hw : u.evaluate p = .ok w)
    (respected : w.violated = false) : v.evaluate p = .ok (.compliant v) := by
  have amount {limit : Decimal} (r : Resource)
      (hu : QuotaWarden.exceeds (u.of r) limit = .ok false) :
      QuotaWarden.exceeds (v.of r) limit = .ok false := by
    rcases h.implied r limit with ⟨f, _, hf⟩ | ⟨a, b, ha, hb, implied⟩
    · cases hf.symm.trans hu
    · obtain rfl := Except.ok.inj (hb.symm.trans hu)
      rw [ha, Bool.eq_false_iff.mpr fun ha => absurd (implied ha) Bool.false_ne_true]
  obtain ⟨within, under, below⟩ := (Usage.evaluate_cases hw).2.1.respected respected
  have few : countExceeds v.pods p.maxPods = false := by
    rw [Bool.eq_false_iff, ne_eq, countExceeds_iff] at within ⊢
    exact fun hv => within ⟨hv.1, hv.2.trans_le h.pods⟩
  have cpu : QuotaWarden.exceeds v.cpu p.maxCpu = .ok false := amount .cpu under
  have memory : QuotaWarden.exceeds v.memory p.maxMemory = .ok false := amount .memory below
  rw [Usage.evaluate, few, cpu, memory]
  rfl

end Usage.AtMost

/-! ### Fewer pods -/

/-- **Evicting never makes a namespace worse.** If what the live pods request can be read and is at
least zero, their usage can be computed, or it overflows. Where it can be computed, it can be
computed for every list with some of the pods left out, as after a delete, and each of its three
numbers is at most the one of the full list: no limit is exceeded that was not exceeded before, and
a policy that was respected stays respected. -/
theorem usage_mono {pods : List Pod} (h : ∀ p ∈ livePods pods, p.RequestsNonneg) :
    Usage.ofPods pods = .error (.signal .overflow) ∨
      ∃ u, Usage.ofPods pods = .ok u ∧ ∀ qs : List Pod, qs.Sublist pods →
        ∃ v, Usage.ofPods qs = .ok v ∧ v.AtMost u ∧ ∀ p : Policy,
          (∀ r, v.Exceeds p r → u.Exceeds p r) ∧
          ∀ w, verdictOn p pods = .ok w → w.violated = false →
            verdictOn p qs = .ok (.compliant v) := by
  have ends := Usage.ofPods_ends h
  cases hu : Usage.ofPods pods with
  | error f =>
      rw [hu] at ends
      exact Or.inl (congrArg Except.error ends)
  | ok u =>
      rw [hu] at ends
      refine Or.inr ⟨u, rfl, fun qs hsub => ?_⟩
      obtain ⟨sums, count⟩ := ofPods_eq_ok.mp hu
      have live : (livePods qs).Sublist (livePods pods) := hsub.filter _
      obtain ⟨a, ha⟩ := Amounts.exists_iff.mpr fun r =>
        sumPods_mono live h Decimal.isSum_zero Decimal.isSum_zero le_rfl (sums r)
      let v : Usage := ⟨a, (livePods qs).length⟩
      have hv : Usage.ofPods qs = .ok v := ofPods_eq_ok.mpr ⟨fun r => (ha r).1, rfl⟩
      have atMost : v.AtMost u := by
        refine ⟨?_, fun r => ⟨(ha r).2.1.isFinite, Decimal.IsSum.isFinite (ends r)⟩,
          fun r => (ha r).2.2⟩
        rw [count]
        change ((livePods qs).length : Int) ≤ _
        have := live.length_le
        omega
      refine ⟨v, hv, atMost, fun p => ⟨fun r => atMost.exceeds, fun w hw respected => ?_⟩⟩
      rw [verdictOn, hu] at hw
      rw [verdictOn, hv]
      exact atMost.compliant hw respected

/-- Together the cores of two pods are rounded up to a power of ten; the larger pod alone requests
less. -/
theorem usage_mono_rounded_up :
    let pod := fun name cpu : String => (⟨some ⟨some name, some "team-a", none, none⟩,
      some [⟨"app", some [("cpu", cpu)]⟩], none⟩ : Pod)
    let large := pod "large" "9999999999999999999999999999"
    let small := pod "small" "0.6"
    (∀ p ∈ livePods [large, small], p.RequestsNonneg) ∧
      Usage.ofPods [large, small] = .ok ⟨⟨.finite 1 28, 0⟩, 2⟩ ∧
      ∃ v, Usage.ofPods [large] = .ok v ∧ v.AtMost ⟨⟨.finite 1 28, 0⟩, 2⟩ := by
  intro pod large small
  have requests {name cpu : String} {n : Nat} {e : Int}
      (read : Quantity.read cpu = .ok (.finite n e)) : (pod name cpu).RequestsNonneg := by
    intro c hc r
    obtain rfl := List.mem_singleton.mp hc
    cases r with
    | cpu => exact ⟨_, read, rfl, mul_nonneg (Nat.cast_nonneg n) (Number.ten_zpow_pos e).le⟩
    | memory => exact ⟨0, rfl, rfl, Decimal.represents_zero.value_eq.ge⟩
  have h : ∀ p ∈ livePods [large, small], p.RequestsNonneg := by
    have live : livePods [large, small] = [large, small] := rfl
    simp only [live, List.forall_mem_cons]
    refine ⟨requests (n := 9999999999999999999999999999) (e := 0) ?_,
      requests (n := 6) (e := -1) ?_, by simp⟩
    · exact eq_ok_of_toOption (by decide +kernel)
    · exact eq_ok_of_toOption (by decide +kernel)
  have usage : Usage.ofPods [large, small] = .ok ⟨⟨.finite 1 28, 0⟩, 2⟩ :=
    eq_ok_of_toOption (by decide +kernel)
  refine ⟨h, usage, ?_⟩
  rcases usage_mono h with overflow | ⟨u, hu, fewer⟩
  · cases overflow.symm.trans usage
  · obtain rfl := Except.ok.inj (hu.symm.trans usage)
    obtain ⟨v, hv, atMost, _⟩ := fewer [large] (by simp)
    exact ⟨v, hv, atMost⟩

end QuotaWarden
