import QuotaWarden.Usage
import QuotaWarden.Proofs.Amounts

/-! # Evaluating moderate namespaces

A list of pods is `Moderate` if what is requested can be read, and if the number of pods and what
they use can be written; a policy is `Policy.Writable` if its limits can. Then evaluating does not
fail (`evaluate_ok`), and the verdict names the first limit that is exceeded. A violation implies
that some pod is live (`livePods_of_violated`). -/

namespace QuotaWarden

open Number

/-! ### Sizes -/

/-- Amounts below what the text of an integer can hold. -/
def Amounts.Moderate (a : Amounts) : Prop :=
  a.cpu.Below digitLimit ∧ a.memory.Below digitLimit

/-- What a container requests of cores and bytes can be read and is less than `10 ^ k`. -/
def Container.RequestsBelow (k : Int) (c : Container) : Prop :=
  ∀ resource ∈ ["cpu", "memory"], ∀ text, field? resource (c.requests.getD []) = some text →
    ∃ x, Quantity.read text = .ok x ∧ x.Below k

instance (k : Int) (c : Container) : Decidable (c.RequestsBelow k) :=
  decidable_of_iff (∀ resource ∈ ["cpu", "memory"], ∀ text ∈ field? resource (c.requests.getD []),
      ∃ x ∈ (Quantity.read text).toOption, x.Below k) <| by
    refine forall₄_congr fun resource _ text _ => exists_congr fun x => and_congr_left fun _ => ?_
    cases Quantity.read text <;> simp [Except.toOption]

/-- The live pods and their usage are of moderate size, and what they request can be read. -/
structure Moderate (pods : List Pod) : Prop where
  count : (livePods pods).length < tenTo digitLimit
  requests : ∀ q ∈ livePods pods, ∀ c ∈ q.containers, c.RequestsBelow digitLimit
  total : ∀ u, Usage.ofPods pods = .ok u → u.toAmounts.Moderate

/-- The limits of a policy can be written. -/
structure Policy.Writable (p : Policy) : Prop where
  cpu : ∃ s, Quantity.writeCpu p.maxCpu = .ok s
  memory : ∃ s, Quantity.writeMemory p.maxMemory = .ok s

theorem Policy.writable_of_amounts {p : Policy} (cpu : p.maxCpu.Writable)
    (memory : p.maxMemory.Writable) : p.Writable :=
  ⟨Quantity.writeCpu_ok cpu, Quantity.writeMemory_ok memory⟩

/-! ### Sums -/

/-- Amounts that were summed up. -/
structure Amounts.Summed (k : Int) (a : Amounts) : Prop where
  cpu : a.cpu.Summed k
  memory : a.memory.Summed k

theorem Amounts.summed_zero (k : Int) : Amounts.zero.Summed k :=
  ⟨Decimal.summed_zero k, Decimal.summed_zero k⟩

/-- The size that requests below `10 ^ k` of one pod may sum up to. -/
def podSize (k : Int) : Int := k + Context.working.digits

/-- The size that requests below `10 ^ k` of many pods may sum up to. -/
def usageSize (k : Int) : Int := podSize k + 1 + Context.working.digits

section

variable {k : Int} (hk : 0 ≤ k) (hmax : usageSize k ≤ Context.working.maxExponent)

include hk hmax

theorem addRequest_ok {requests : List (String × String)} {resource : String} {sum : Decimal}
    (h : ∀ text, field? resource requests = some text →
      ∃ x, Quantity.read text = .ok x ∧ x.Below k) (hs : sum.Summed (podSize k)) :
    ∃ z, addRequest requests resource sum = .ok z ∧ z.Summed (podSize k) := by
  unfold addRequest
  cases hf : field? resource requests with
  | none => exact ⟨sum, rfl, hs⟩
  | some text =>
      obtain ⟨x, hx, hb⟩ := h text hf
      have hrange : k + Context.working.digits ≤ Context.working.maxExponent := by
        unfold usageSize podSize at hmax
        omega
      obtain ⟨z, hz, hz'⟩ := Decimal.add_ok hs.upTo hb hk hrange
      exact ⟨z, by simp [hx, hz, liftSignal, bind, Except.bind], hz'⟩

theorem Container.addTo_ok {c : Container} {a : Amounts} (h : c.RequestsBelow k)
    (ha : a.Summed (podSize k)) : ∃ b, c.addTo a = .ok b ∧ b.Summed (podSize k) := by
  obtain ⟨cpu, hcpu, hsum⟩ := addRequest_ok hk hmax (h "cpu" (by simp)) ha.cpu
  obtain ⟨memory, hmemory, hsum'⟩ := addRequest_ok hk hmax (h "memory" (by simp)) ha.memory
  refine ⟨⟨cpu, memory⟩, ?_, hsum, hsum'⟩
  simp [addTo, hcpu, hmemory, bind, Except.bind, pure, Except.pure]

theorem foldlM_addTo_ok {cs : List Container} {a : Amounts} (h : ∀ c ∈ cs, c.RequestsBelow k)
    (ha : a.Summed (podSize k)) :
    ∃ b, cs.foldlM Container.addTo a = .ok b ∧ b.Summed (podSize k) := by
  induction cs generalizing a with
  | nil => exact ⟨a, rfl, ha⟩
  | cons c cs ih =>
      rw [List.forall_mem_cons] at h
      obtain ⟨b, hb, hsum⟩ := Container.addTo_ok hk hmax h.1 ha
      obtain ⟨z, hz, hsum'⟩ := ih h.2 hsum
      refine ⟨z, ?_, hsum'⟩
      rw [List.foldlM_cons, hb]
      exact hz

/-! ### Usage -/

theorem Usage.withPod_ok {u : Usage} {q : Pod} (h : ∀ c ∈ q.containers, c.RequestsBelow k)
    (hu : u.toAmounts.Summed (usageSize k)) :
    ∃ v, u.withPod q = .ok v ∧ v.toAmounts.Summed (usageSize k) ∧ v.pods = u.pods + 1 := by
  obtain ⟨a, ha, hsum⟩ := foldlM_addTo_ok hk hmax h (Amounts.summed_zero (podSize k))
  have hrequests : q.requests = .ok a := ha
  have hpos : 0 ≤ podSize k + 1 := by
    unfold podSize
    omega
  obtain ⟨cpu, hcpu, hsum'⟩ := Decimal.add_ok hu.cpu.upTo hsum.cpu.upTo.below hpos hmax
  obtain ⟨memory, hmemory, hsum''⟩ :=
    Decimal.add_ok hu.memory.upTo hsum.memory.upTo.below hpos hmax
  refine ⟨⟨⟨cpu, memory⟩, u.pods + 1⟩, ?_, ⟨hsum', hsum''⟩, rfl⟩
  simp [withPod, hrequests, Amounts.add, hcpu, hmemory, liftSignal, bind, Except.bind, pure,
    Except.pure]

theorem Usage.foldlM_withPod_ok {pods : List Pod} {u : Usage}
    (h : ∀ q ∈ pods, ∀ c ∈ q.containers, c.RequestsBelow k)
    (hu : u.toAmounts.Summed (usageSize k)) :
    ∃ v, pods.foldlM withPod u = .ok v ∧ v.toAmounts.Summed (usageSize k) ∧
      v.pods = u.pods + pods.length := by
  induction pods generalizing u with
  | nil => exact ⟨u, rfl, hu, (Int.add_zero _).symm⟩
  | cons q pods ih =>
      rw [List.forall_mem_cons] at h
      obtain ⟨v, hv, hsum, hcount⟩ := withPod_ok hk hmax h.1 hu
      obtain ⟨w, hw, hsum', hcount'⟩ := ih h.2 hsum
      refine ⟨w, ?_, hsum', ?_⟩
      · rw [List.foldlM_cons, hv]
        exact hw
      · rw [hcount', hcount, List.length_cons]
        omega

/-- `Usage.ofPods` succeeds on requests below `10 ^ k`, however many pods there are. -/
theorem Usage.ofPods_summed {pods : List Pod}
    (h : ∀ q ∈ livePods pods, ∀ c ∈ q.containers, c.RequestsBelow k) :
    ∃ u, ofPods pods = .ok u ∧ u.toAmounts.Summed (usageSize k) ∧
      u.pods = (livePods pods).length := by
  obtain ⟨u, hu, hsum, hcount⟩ :=
    foldlM_withPod_ok hk hmax h (u := zero) (Amounts.summed_zero (usageSize k))
  rw [ofPods_eq]
  exact ⟨u, hu, hsum, by rw [hcount]; exact Int.zero_add _⟩

end

theorem Usage.ofPods_ok {pods : List Pod} (h : Moderate pods) :
    ∃ u, ofPods pods = .ok u ∧ u.toAmounts.Summed (usageSize digitLimit) ∧
      u.pods = (livePods pods).length := ofPods_summed (by decide) (by decide) h.requests

/-- Pods are `Moderate` if their requests are below `10 ^ k` and sums of these can be written. -/
theorem moderate_of_requests {pods : List Pod} {k : Int} (hk : 0 ≤ k)
    (hsize : usageSize k < digitLimit) (hcount : pods.length < tenTo digitLimit)
    (h : ∀ q ∈ pods, ∀ c ∈ q.containers, c.RequestsBelow k) : Moderate pods := by
  have hdigits : (digitLimit : Int) ≤ Context.working.maxExponent := by decide
  have hle : k ≤ digitLimit := by
    unfold usageSize podSize at hsize
    omega
  refine ⟨?_, ?_, ?_⟩
  · exact Nat.lt_of_le_of_lt (List.length_filter_le _ _) hcount
  · intro q hq c hc resource hr text ht
    obtain ⟨x, hx, hb⟩ := h q (mem_livePods.mp hq).1 c hc resource hr text ht
    exact ⟨x, hx, hb.mono hle⟩
  · intro u hu
    obtain ⟨u', hu', hsum, _⟩ := Usage.ofPods_summed hk (by omega)
      (fun q hq => h q (mem_livePods.mp hq).1)
    obtain rfl : u' = u := Except.ok.inj (hu'.symm.trans hu)
    exact ⟨hsum.cpu.upTo.below.mono (by omega), hsum.memory.upTo.below.mono (by omega)⟩

/-! ### Limits -/

theorem exceeds_ok {amount limit : Decimal} (ha : amount.isFinite = true)
    (hl : limit.isFinite = true) : ∃ b, exceeds amount limit = .ok b := by
  obtain ⟨set, hset⟩ := Decimal.lt_ok (x := 0) rfl hl
  obtain ⟨above, hover⟩ := Decimal.lt_ok hl ha
  unfold exceeds
  rw [hset, hover]
  cases set with
  | true => exact ⟨above, rfl⟩
  | false => exact ⟨false, rfl⟩

theorem lt_zero_left (c e : Int) : Decimal.lt 0 (.finite c e) = .ok (decide (0 < c)) := by
  change Except.ok (Decimal.compareFinite 0 0 c e == .lt) = _
  unfold Decimal.compareFinite
  rcases Int.lt_trichotomy c 0 with hc | rfl | hc
  · rw [Int.sign_eq_neg_one_of_neg hc, decide_eq_false (by omega)]
    rfl
  · rfl
  · rw [Int.sign_eq_one_of_pos hc, decide_eq_true hc]
    rfl

theorem lt_zero_right (c e : Int) : Decimal.lt (.finite c e) 0 = .ok (decide (c < 0)) := by
  change Except.ok (Decimal.compareFinite c e 0 0 == .lt) = _
  unfold Decimal.compareFinite
  rcases Int.lt_trichotomy c 0 with hc | rfl | hc
  · rw [Int.sign_eq_neg_one_of_neg hc, decide_eq_true hc]
    rfl
  · rfl
  · rw [Int.sign_eq_one_of_pos hc, decide_eq_false (by omega)]
    rfl

theorem exceeds_zero (limit : Decimal) : exceeds 0 limit ≠ .ok true := by
  cases limit with
  | finite c e =>
      unfold exceeds
      rw [lt_zero_left, lt_zero_right]
      by_cases hc : 0 < c
      · simp [liftSignal, bind, Except.bind, hc, Int.le_of_lt hc]
      · simp [liftSignal, bind, Except.bind, hc, pure, Except.pure]
  | infinite negative =>
      have below : exceeds 0 (.infinite negative) = .ok false := by cases negative <;> rfl
      rw [below]
      simp
  | quietNaN =>
      have stops : exceeds 0 .quietNaN = .error (.signal .invalidOperation) := rfl
      rw [stops]
      simp
  | signalingNaN =>
      have stops : exceeds 0 .signalingNaN = .error (.signal .invalidOperation) := rfl
      rw [stops]
      simp

/-! ### Verdicts -/

/-- The verdict on a usage: the first limit that it exceeds. -/
inductive Judged (u : Usage) (p : Policy) (v : Verdict) : Prop
  | pods (above : countExceeds u.pods p.maxPods = true) (reason : v.reason = .pods)
  | cpu (within : countExceeds u.pods p.maxPods = false)
      (above : exceeds u.cpu p.maxCpu = .ok true) (reason : v.reason = .cpu)
  | memory (within : countExceeds u.pods p.maxPods = false)
      (under : exceeds u.cpu p.maxCpu = .ok false)
      (above : exceeds u.memory p.maxMemory = .ok true) (reason : v.reason = .memory)
  | compliant (within : countExceeds u.pods p.maxPods = false)
      (under : exceeds u.cpu p.maxCpu = .ok false)
      (below : exceeds u.memory p.maxMemory = .ok false) (reason : v.reason = .none)

theorem Judged.respected {u : Usage} {p : Policy} {v : Verdict} (h : Judged u p v)
    (hv : v.violated = false) : countExceeds u.pods p.maxPods = false ∧
      exceeds u.cpu p.maxCpu = .ok false ∧ exceeds u.memory p.maxMemory = .ok false := by
  have unset : v.reason = .none := by simpa [Verdict.violated] using hv
  cases h with
  | compliant within under below => exact ⟨within, under, below⟩
  | pods _ reason => exact absurd (unset.symm.trans reason) (by decide)
  | cpu _ _ reason => exact absurd (unset.symm.trans reason) (by decide)
  | memory _ _ _ reason => exact absurd (unset.symm.trans reason) (by decide)

theorem writeCount_ok {n : Int} {k : Nat} (hn : n.natAbs ≤ k) (hk : k < tenTo digitLimit) :
    ∃ s, writeCount n = .ok s := by
  obtain ⟨s, hs⟩ := writeInteger?_ok (n := n)
    (digitCount_le_of_lt_pow (by decide) (Nat.lt_of_le_of_lt hn hk))
  exact ⟨s, by rw [writeCount, hs]⟩

theorem Usage.evaluate_of_writable {u : Usage} {p : Policy}
    (count : u.pods.natAbs < tenTo digitLimit) (cpu : u.cpu.Writable) (memory : u.memory.Writable)
    (hp : p.Writable) : ∃ v, u.evaluate p = .ok v ∧ v.usage = u ∧ Judged u p v := by
  obtain ⟨cpuText, hcpu⟩ := Quantity.writeCpu_ok cpu
  obtain ⟨memoryText, hmemory⟩ := Quantity.writeMemory_ok memory
  obtain ⟨maxCpu, hmaxCpu⟩ := hp.cpu
  obtain ⟨maxMemory, hmaxMemory⟩ := hp.memory
  obtain ⟨overCpu, hoverCpu⟩ :=
    exceeds_ok (Quantity.isFinite_of_writeCpu hcpu) (Quantity.isFinite_of_writeCpu hmaxCpu)
  obtain ⟨overMemory, hoverMemory⟩ := exceeds_ok (Quantity.isFinite_of_writeMemory hmemory)
    (Quantity.isFinite_of_writeMemory hmaxMemory)
  unfold Usage.evaluate
  cases hc : countExceeds u.pods p.maxPods with
  | true =>
      obtain ⟨hset, hover⟩ : 0 < p.maxPods ∧ p.maxPods < u.pods := by
        simpa [countExceeds] using hc
      obtain ⟨s, hs⟩ := writeCount_ok (n := u.pods) (Nat.le_refl _) count
      obtain ⟨t, ht⟩ := writeCount_ok (n := p.maxPods) (by omega) count
      refine ⟨⟨u, .pods, "pods:" ++ s ++ ">max:" ++ t⟩, ?_, rfl, .pods hc rfl⟩
      simp [hs, ht, bind, Except.bind, pure, Except.pure]
  | false =>
      rw [hoverCpu, hoverMemory]
      cases overCpu with
      | true =>
          refine ⟨⟨u, .cpu, "cpu:" ++ cpuText ++ ">max:" ++ maxCpu⟩, ?_, rfl,
            .cpu hc hoverCpu rfl⟩
          simp [hcpu, hmaxCpu, bind, Except.bind, pure, Except.pure]
      | false =>
          cases overMemory with
          | true =>
              refine ⟨⟨u, .memory, "memory:" ++ memoryText ++ ">max:" ++ maxMemory⟩, ?_, rfl,
                .memory hc hoverCpu hoverMemory rfl⟩
              simp [hmemory, hmaxMemory, bind, Except.bind, pure, Except.pure]
          | false => exact ⟨.compliant u, rfl, rfl, .compliant hc hoverCpu hoverMemory rfl⟩

theorem evaluate_ok {pods : List Pod} {u : Usage} {p : Policy} (h : Moderate pods)
    (hu : Usage.ofPods pods = .ok u) (hp : p.Writable) :
    ∃ v, u.evaluate p = .ok v ∧ v.usage = u ∧ Judged u p v := by
  obtain ⟨u', hu', hsum, hcount⟩ := Usage.ofPods_ok h
  obtain rfl : u' = u := Except.ok.inj (hu'.symm.trans hu)
  obtain ⟨hcpu, hmemory⟩ := h.total u' hu'
  have count := h.count
  exact Usage.evaluate_of_writable (by omega) (hsum.cpu.rounded.writable hcpu)
    (hsum.memory.rounded.writable hmemory) hp

/-- `Usage.evaluate` gives a `Judged` verdict, whose message names its limit first. -/
theorem Usage.evaluate_cases {u : Usage} {p : Policy} {v : Verdict} (h : u.evaluate p = .ok v) :
    v.usage = u ∧ Judged u p v ∧
      (v.message = "" ∨
        ∃ front ∈ ["pods:", "cpu:", "memory:"], ∃ rest, v.message = front ++ rest) := by
  have told : ∀ {r : Reason} {front : String} (s t : Except Fault String),
      front ∈ ["pods:", "cpu:", "memory:"] →
      (do return ⟨u, r, front ++ (← s) ++ ">max:" ++ (← t)⟩ : Except Fault Verdict) = .ok v →
      v.usage = u ∧ v.reason = r ∧ ∃ front ∈ ["pods:", "cpu:", "memory:"], ∃ rest,
        v.message = front ++ rest := by
    intro r front s t hfront hv
    cases s with
    | error f => simp [bind, Except.bind] at hv
    | ok amount =>
        cases t with
        | error f => simp [bind, Except.bind] at hv
        | ok limit =>
            obtain rfl := Except.ok.inj hv
            exact ⟨rfl, rfl, front, hfront, amount ++ (">max:" ++ limit),
              by simp only [String.append_assoc]⟩
  unfold Usage.evaluate at h
  cases within : countExceeds u.pods p.maxPods with
  | true =>
      rw [within] at h
      obtain ⟨husage, hreason, hmessage⟩ := told _ _ (by decide) h
      exact ⟨husage, .pods within hreason, Or.inr hmessage⟩
  | false =>
      rw [within] at h
      cases hcpu : exceeds u.cpu p.maxCpu with
      | error f => simp [hcpu, bind, Except.bind] at h
      | ok overCpu =>
          rw [hcpu] at h
          cases overCpu with
          | true =>
              obtain ⟨husage, hreason, hmessage⟩ := told _ _ (by decide) h
              exact ⟨husage, .cpu within hcpu hreason, Or.inr hmessage⟩
          | false =>
              cases hmemory : exceeds u.memory p.maxMemory with
              | error f => simp [hmemory, bind, Except.bind] at h
              | ok overMemory =>
                  rw [hmemory] at h
                  cases overMemory with
                  | true =>
                      obtain ⟨husage, hreason, hmessage⟩ := told _ _ (by decide) h
                      exact ⟨husage, .memory within hcpu hmemory hreason, Or.inr hmessage⟩
                  | false =>
                      obtain rfl := Except.ok.inj h
                      exact ⟨rfl, .compliant within hcpu hmemory rfl, Or.inl rfl⟩

/-- `Usage.zero` violates no policy. -/
theorem Judged.of_zero {p : Policy} {v : Verdict} (h : Judged .zero p v) : v.violated = false := by
  cases h with
  | pods above _ =>
      simp only [countExceeds, Bool.and_eq_true, decide_eq_true_eq] at above
      exact absurd (Int.lt_trans above.1 above.2) (Int.lt_irrefl 0)
  | cpu _ above _ => exact absurd above (exceeds_zero _)
  | memory _ _ above _ => exact absurd above (exceeds_zero _)
  | compliant _ _ _ reason => simp [Verdict.violated, reason]

/-- The verdict on a list of pods. -/
def verdictOn (p : Policy) (pods : List Pod) : Except Fault Verdict := do
  (← Usage.ofPods pods).evaluate p

/-- **`Moderate` pods have a verdict**, on the usage of the live ones. -/
theorem verdictOn_ok {pods : List Pod} {p : Policy} (h : Moderate pods) (hp : p.Writable) :
    ∃ v, verdictOn p pods = .ok v ∧ Usage.ofPods pods = .ok v.usage ∧ Judged v.usage p v := by
  obtain ⟨u, hu, _⟩ := Usage.ofPods_ok h
  obtain ⟨v, hv, rfl, hj⟩ := evaluate_ok h hu hp
  refine ⟨v, ?_, hu, hj⟩
  rw [verdictOn, hu]
  exact hv

theorem livePods_of_violated {pods : List Pod} {p : Policy} {v : Verdict}
    (hv : verdictOn p pods = .ok v) (hviolated : v.violated = true) : livePods pods ≠ [] := by
  intro hnone
  have hzero : Usage.ofPods pods = .ok .zero := by rw [Usage.ofPods_eq, hnone]; rfl
  have evaluated : Usage.zero.evaluate p = .ok v := by
    rw [verdictOn, hzero] at hv
    exact hv
  rw [(Usage.evaluate_cases evaluated).2.1.of_zero] at hviolated
  exact absurd hviolated Bool.false_ne_true

end QuotaWarden
