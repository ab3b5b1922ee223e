import QuotaWarden.Proofs.DecimalValues
import QuotaWarden.Proofs.Evaluation
import QuotaWarden.Proofs.WrittenTexts
import Mathlib.Algebra.Order.BigOperators.Group.List
import Mathlib.Data.List.Infix

/-! # Exact usage

Amounts are added up in two levels, containers and then pods, and every sum is rounded. A namespace
whose requests are multiples of a unit of `10 ^ -k`, and together below what 28 digits can count in
it, is `Summable`. Then no sum is rounded, and the order does not matter.

* `Resource` names the two amounts. The cores and the bytes are added up side by side
  (`foldlM_columns`), so each of them is `sumRequests` and `sumPods` of its own.
* `sumRequests_exact` and `sumPods_exact`: the sum over each level represents the sum of the
  numbers, `total`.
* `Rearranged` are lists of pods that differ in the order of pods, in the order of containers within
  a pod, or by pods that have ended.

`usage_exact` puts them together. -/

namespace QuotaWarden

open Number

/-! ### The two resources -/

/-- A resource that containers request. -/
inductive Resource where
  | cpu
  | memory
deriving DecidableEq, Repr

/-- The word for a resource. -/
def Resource.name : Resource → String
  | cpu => "cpu"
  | memory => "memory"

theorem Resource.forall_iff {P : Resource → Prop} : (∀ r, P r) ↔ P .cpu ∧ P .memory :=
  ⟨fun h => ⟨h .cpu, h .memory⟩, fun h r => by cases r; exacts [h.1, h.2]⟩

namespace Amounts

/-- The amount of a resource. -/
def of (a : Amounts) : Resource → Decimal
  | .cpu => a.cpu
  | .memory => a.memory

theorem ext_of {a b : Amounts} (h : ∀ r, a.of r = b.of r) : a = b := by
  obtain ⟨hcpu, hmemory⟩ := Resource.forall_iff.mp h
  cases a
  cases b
  exact congr (congrArg Amounts.mk hcpu) hmemory

theorem exists_iff {P : Resource → Decimal → Prop} :
    (∃ a : Amounts, ∀ r, P r (a.of r)) ↔ ∀ r, ∃ x, P r x := by
  constructor
  · rintro ⟨a, h⟩ r
    exact ⟨a.of r, h r⟩
  · intro h
    obtain ⟨cpu, hcpu⟩ := h .cpu
    obtain ⟨memory, hmemory⟩ := h .memory
    exact ⟨⟨cpu, memory⟩, Resource.forall_iff.mpr ⟨hcpu, hmemory⟩⟩

end Amounts

/-! ### Sums side by side -/

section

variable {ε α β : Type}

theorem amounts_eq_ok {cpu memory : Except ε Decimal} {a : Amounts} :
    (do let x ← cpu; let y ← memory; return (⟨x, y⟩ : Amounts)) = .ok a ↔
      cpu = .ok a.cpu ∧ memory = .ok a.memory := by
  simp only [bind_eq_ok]
  constructor
  · rintro ⟨x, hx, y, hy, h⟩
    cases h
    exact ⟨hx, hy⟩
  · rintro ⟨hx, hy⟩
    exact ⟨_, hx, _, hy, rfl⟩

/-- A fold over `Amounts` succeeds as the folds over both resources do. -/
theorem foldlM_columns {f : Amounts → α → Except ε Amounts}
    {g : Resource → Decimal → α → Except ε Decimal}
    (h : ∀ a x b, f a x = .ok b ↔ ∀ r, g r (a.of r) x = .ok (b.of r)) (xs : List α)
    (a b : Amounts) : xs.foldlM f a = .ok b ↔ ∀ r, xs.foldlM (g r) (a.of r) = .ok (b.of r) := by
  induction xs generalizing a with
  | nil =>
      constructor
      · rintro ⟨⟩ r
        rfl
      · exact fun hr => congrArg Except.ok (Amounts.ext_of fun r => Except.ok.inj (hr r))
  | cons x xs ih =>
      simp only [List.foldlM_cons, bind_eq_ok]
      rw [← Amounts.exists_iff (P := fun r d =>
        g r (a.of r) x = .ok d ∧ xs.foldlM (g r) d = .ok (b.of r))]
      refine exists_congr fun c => ?_
      rw [h, ih, ← forall_and]

end

theorem liftSignal_eq_ok {α : Type} {x : Except Signal α} {a : α} :
    liftSignal x = .ok a ↔ x = .ok a := by
  cases x <;> simp [liftSignal]

theorem Amounts.add_eq_ok {a b c : Amounts} :
    a.add b = .ok c ↔ ∀ r, Decimal.add .working (a.of r) (b.of r) = .ok (c.of r) := by
  rw [Resource.forall_iff]
  exact amounts_eq_ok

/-! ### The sum for one resource -/

/-- What a container requests of a resource: nothing where it states no request. -/
def Container.requested (r : Resource) (c : Container) : Except Fault Decimal :=
  match field? r.name (c.requests.getD []) with
  | none => .ok 0
  | some text => Quantity.read text

/-- The number that a container requests of a resource. -/
def Container.amount (r : Resource) (c : Container) : ℚ :=
  match c.requested r with
  | .ok x => x.value
  | .error _ => 0

/-- What containers request together. -/
def total (r : Resource) (cs : List Container) : ℚ := (cs.map (Container.amount r)).sum

/-- The magnitudes of what containers request, together. -/
def magnitude (r : Resource) (cs : List Container) : ℚ := (cs.map fun c => |c.amount r|).sum

/-- Adds what containers request of a resource to a sum. -/
def sumRequests (r : Resource) (cs : List Container) (sum : Decimal) : Except Fault Decimal :=
  cs.foldlM (fun sum c => addRequest (c.requests.getD []) r.name sum) sum

/-- Adds what pods request of a resource to a sum, pod by pod. -/
def sumPods (r : Resource) (pods : List Pod) (sum : Decimal) : Except Fault Decimal :=
  pods.foldlM (fun sum p => do
    let x ← sumRequests r p.containers 0
    liftSignal (Decimal.add .working sum x)) sum

theorem foldlM_addTo_eq_ok {cs : List Container} {a b : Amounts} :
    cs.foldlM Container.addTo a = .ok b ↔ ∀ r, sumRequests r cs (a.of r) = .ok (b.of r) := by
  refine foldlM_columns (fun a c b => ?_) cs a b
  rw [Resource.forall_iff]
  exact amounts_eq_ok

/-- Adds what a pod requests to amounts. -/
def Amounts.addPod (a : Amounts) (p : Pod) : Except Fault Amounts := do
  let requests ← p.requests
  liftSignal (a.add requests)

theorem Amounts.addPod_eq_ok {a b : Amounts} {p : Pod} :
    a.addPod p = .ok b ↔ ∀ r, (do
      let x ← sumRequests r p.containers 0
      liftSignal (Decimal.add .working (a.of r) x)) = .ok (b.of r) := by
  unfold Amounts.addPod
  simp only [bind_eq_ok, liftSignal_eq_ok]
  rw [← Amounts.exists_iff (P := fun r x =>
    sumRequests r p.containers 0 = .ok x ∧ Decimal.add .working (a.of r) x = .ok (b.of r))]
  refine exists_congr fun c => ?_
  have requests : p.requests = .ok c ↔ ∀ r, sumRequests r p.containers 0 = .ok (c.of r) := by
    refine (foldlM_addTo_eq_ok (a := .zero)).trans (forall_congr' fun r => ?_)
    cases r <;> rfl
  rw [requests, add_eq_ok, ← forall_and]

theorem Usage.withPod_eq_ok {u v : Usage} {p : Pod} :
    u.withPod p = .ok v ↔ u.toAmounts.addPod p = .ok v.toAmounts ∧ v.pods = u.pods + 1 := by
  unfold Usage.withPod Amounts.addPod
  simp only [bind_eq_ok]
  constructor
  · rintro ⟨requests, hr, a, ha, h⟩
    cases h
    exact ⟨⟨requests, hr, ha⟩, rfl⟩
  · rintro ⟨⟨requests, hr, ha⟩, hpods⟩
    refine ⟨requests, hr, v.toAmounts, ha, ?_⟩
    rw [← hpods]
    rfl

theorem foldlM_withPod_eq_ok {pods : List Pod} {u v : Usage} :
    pods.foldlM Usage.withPod u = .ok v ↔
      (∀ r, sumPods r pods (u.of r) = .ok (v.of r)) ∧ v.pods = u.pods + pods.length := by
  have columns : pods.foldlM Amounts.addPod u.toAmounts = .ok v.toAmounts ↔
      ∀ r, sumPods r pods (u.of r) = .ok (v.of r) :=
    foldlM_columns (fun _ _ _ => Amounts.addPod_eq_ok) pods _ _
  rw [← columns]
  clear columns
  induction pods generalizing u with
  | nil =>
      constructor
      · rintro ⟨⟩
        exact ⟨rfl, (Int.add_zero _).symm⟩
      · rintro ⟨ha, hpods⟩
        cases u
        cases v
        cases ha
        cases hpods.trans (Int.add_zero _)
        rfl
  | cons p pods ih =>
      simp only [List.foldlM_cons, bind_eq_ok, ih, Usage.withPod_eq_ok, List.length_cons]
      constructor
      · rintro ⟨w, ⟨hw, hcount⟩, hv, hpods⟩
        exact ⟨⟨w.toAmounts, hw, hv⟩, by omega⟩
      · rintro ⟨⟨a, ha, hv⟩, hpods⟩
        exact ⟨⟨a, u.pods + 1⟩, ⟨ha, rfl⟩, hv, by dsimp only; omega⟩

/-! ### Exact sums -/

/-- A number is a multiple of `10 ^ -k`. -/
def OnGrid (k : Nat) (q : ℚ) : Prop := ∃ n : Int, q = n * 10 ^ (-(k : Int))

theorem onGrid_zero (k : Nat) : OnGrid k 0 := ⟨0, by simp⟩

theorem OnGrid.add {k : Nat} {p q : ℚ} (hp : OnGrid k p) (hq : OnGrid k q) : OnGrid k (p + q) := by
  obtain ⟨m, rfl⟩ := hp
  obtain ⟨n, rfl⟩ := hq
  exact ⟨m + n, by rw [Int.cast_add, add_mul]⟩

/-- What a container requests of a resource can be read, as a multiple of `10 ^ -k`. -/
def Container.OnGrid (r : Resource) (k : Nat) (c : Container) : Prop :=
  ∃ x, c.requested r = .ok x ∧ x.isFinite = true ∧ QuotaWarden.OnGrid k x.value

/-- What containers request of a resource are multiples of `10 ^ -k`, and together less than 28
digits can count. -/
structure Summable (r : Resource) (k : Nat) (cs : List Container) : Prop where
  onGrid : ∀ c ∈ cs, c.OnGrid r k
  small : magnitude r cs < 10 ^ (28 - (k : Int))

/-- The largest exponent of a unit that is within the range of the arithmetic. -/
def finestGrid : Nat := 1000000

theorem magnitude_nonneg (r : Resource) (cs : List Container) : 0 ≤ magnitude r cs :=
  List.sum_nonneg fun x hx => by
    obtain ⟨c, _, rfl⟩ := List.mem_map.mp hx
    exact abs_nonneg _

theorem magnitude_cons (r : Resource) (c : Container) (cs : List Container) :
    magnitude r (c :: cs) = |c.amount r| + magnitude r cs := by simp [magnitude]

theorem magnitude_append (r : Resource) (cs ds : List Container) :
    magnitude r (cs ++ ds) = magnitude r cs + magnitude r ds := by simp [magnitude]

theorem total_cons (r : Resource) (c : Container) (cs : List Container) :
    total r (c :: cs) = c.amount r + total r cs := by simp [total]

theorem total_append (r : Resource) (cs ds : List Container) :
    total r (cs ++ ds) = total r cs + total r ds := by simp [total]

theorem abs_total_le (r : Resource) (cs : List Container) : |total r cs| ≤ magnitude r cs := by
  induction cs with
  | nil => simp [total, magnitude]
  | cons c cs ih =>
      rw [total_cons, magnitude_cons]
      exact (abs_add_le _ _).trans (by gcongr)

theorem Summable.sublist {r : Resource} {k : Nat} {cs ds : List Container}
    (h : Summable r k ds) (hs : cs.Sublist ds) : Summable r k cs := by
  refine ⟨fun c hc => h.onGrid c (hs.subset hc), lt_of_le_of_lt ?_ h.small⟩
  refine List.Sublist.sum_le_sum (hs.map _) fun x hx => ?_
  obtain ⟨c, _, rfl⟩ := List.mem_map.mp hx
  exact abs_nonneg _

theorem Summable.perm {r : Resource} {k : Nat} {cs ds : List Container}
    (h : Summable r k cs) (hp : cs.Perm ds) : Summable r k ds := by
  refine ⟨fun c hc => h.onGrid c (hp.mem_iff.mpr hc), ?_⟩
  rw [magnitude, ← (hp.map _).sum_eq]
  exact h.small

theorem total_perm (r : Resource) {cs ds : List Container} (hp : cs.Perm ds) :
    total r cs = total r ds := (hp.map _).sum_eq

section

variable {r : Resource} {k : Nat} (hk : k ≤ finestGrid)

include hk

/-- Multiples of `10 ^ -k` are added exactly below `10 ^ (28 - k)`. -/
theorem Decimal.add_onGrid {x y : Decimal} (hx : x.isFinite = true) (hy : y.isFinite = true)
    (gx : OnGrid k x.value) (gy : OnGrid k y.value)
    (h : |x.value| + |y.value| < 10 ^ (28 - (k : Int))) :
    ∃ z, add .working x y = .ok z ∧ z.Represents (x.value + y.value) := by
  obtain ⟨a, ha⟩ := gx
  obtain ⟨b, hb⟩ := gy
  have hgrid : k ≤ 1000000 := hk
  refine add_exact hx hy ha hb ?_ ?_ ?_
  · rw [ha, hb, abs_scaled, abs_scaled, ← add_mul, sub_eq_add_neg, zpow_add₀ (by norm_num)] at h
    have hlt := lt_of_mul_lt_mul_right h (ten_zpow_pos _).le
    have hcast : ((a.natAbs + b.natAbs : Nat) : ℚ) < (tenTo 28 : Nat) := by
      rw [tenTo_cast]
      exact_mod_cast hlt
    exact_mod_cast hcast
  · show (-1000026 : Int) ≤ -(k : Int)
    omega
  · show -(k : Int) + 28 ≤ 999999 + 1
    omega

theorem addRequest_exact {c : Container} {sum : Decimal} {q : ℚ} (hc : c.OnGrid r k)
    (hs : sum.Represents q) (hq : OnGrid k q) (h : |q| + |c.amount r| < 10 ^ (28 - (k : Int))) :
    ∃ z, addRequest (c.requests.getD []) r.name sum = .ok z ∧ z.Represents (q + c.amount r) ∧
      OnGrid k (q + c.amount r) := by
  obtain ⟨x, hx, hfinite, hgrid⟩ := hc
  have hamount : c.amount r = x.value := by rw [Container.amount, hx]
  rw [hamount] at h ⊢
  unfold Container.requested at hx
  unfold addRequest
  cases hf : field? r.name (c.requests.getD []) with
  | none =>
      rw [hf] at hx
      obtain rfl := Except.ok.inj hx
      rw [Decimal.represents_zero.value_eq, add_zero]
      exact ⟨sum, rfl, hs, hq⟩
  | some text =>
      rw [hf] at hx
      have hread : Quantity.read text = .ok x := hx
      obtain ⟨z, hz, hrep⟩ := Decimal.add_onGrid hk hs.isFinite hfinite (by rwa [hs.value_eq])
        hgrid (by rwa [hs.value_eq])
      rw [hs.value_eq] at hrep
      exact ⟨z, by simp [hread, hz, liftSignal, bind, Except.bind], hrep, hq.add hgrid⟩

theorem sumRequests_exact {cs : List Container} {sum : Decimal} {q : ℚ}
    (hc : ∀ c ∈ cs, c.OnGrid r k) (hs : sum.Represents q) (hq : OnGrid k q)
    (h : |q| + magnitude r cs < 10 ^ (28 - (k : Int))) :
    ∃ z, sumRequests r cs sum = .ok z ∧ z.Represents (q + total r cs) ∧
      OnGrid k (q + total r cs) := by
  induction cs generalizing sum q with
  | nil => exact ⟨sum, rfl, by simpa [total] using hs, by simpa [total] using hq⟩
  | cons c cs ih =>
      rw [List.forall_mem_cons] at hc
      rw [magnitude_cons] at h
      have hrest := magnitude_nonneg r cs
      obtain ⟨y, hy, hrep, hgrid⟩ := addRequest_exact hk hc.1 hs hq (by linarith)
      have habs := abs_add_le q (c.amount r)
      obtain ⟨z, hz, hrep', hgrid'⟩ := ih hc.2 hrep hgrid (by linarith)
      rw [total_cons, ← add_assoc]
      refine ⟨z, ?_, hrep', hgrid'⟩
      unfold sumRequests at hz ⊢
      rw [List.foldlM_cons, hy]
      exact hz

/-- `sumPods` gives `total`, although each pod is summed up first. -/
theorem sumPods_exact {pods : List Pod} {sum : Decimal} {q : ℚ}
    (hc : ∀ c ∈ pods.flatMap Pod.containers, c.OnGrid r k) (hs : sum.Represents q)
    (hq : OnGrid k q)
    (h : |q| + magnitude r (pods.flatMap Pod.containers) < 10 ^ (28 - (k : Int))) :
    ∃ z, sumPods r pods sum = .ok z ∧
      z.Represents (q + total r (pods.flatMap Pod.containers)) := by
  induction pods generalizing sum q with
  | nil => exact ⟨sum, rfl, by simpa [total] using hs⟩
  | cons p pods ih =>
      rw [List.flatMap_cons] at hc h ⊢
      rw [List.forall_mem_append] at hc
      rw [magnitude_append] at h
      have hrest := magnitude_nonneg r (pods.flatMap Pod.containers)
      have hown := abs_total_le r p.containers
      have habs := abs_add_le q (total r p.containers)
      have hnonneg := abs_nonneg q
      obtain ⟨x, hx, hrep, hgrid⟩ := sumRequests_exact hk hc.1 Decimal.represents_zero
        (onGrid_zero k) (by rw [abs_zero]; linarith)
      rw [zero_add] at hrep hgrid
      obtain ⟨y, hy, hrep'⟩ := Decimal.add_onGrid hk hs.isFinite hrep.isFinite
        (by rwa [hs.value_eq]) (by rwa [hrep.value_eq])
        (by rw [hs.value_eq, hrep.value_eq]; linarith)
      rw [hs.value_eq, hrep.value_eq] at hrep'
      obtain ⟨z, hz, hrep''⟩ := ih hc.2 hrep' (hq.add hgrid) (by linarith)
      rw [total_append, ← add_assoc]
      refine ⟨z, ?_, hrep''⟩
      unfold sumPods at hz ⊢
      rw [List.foldlM_cons, hx]
      simp only [hy, liftSignal, bind, Except.bind]
      exact hz

end

/-! ### Live pods in any order -/

/-- The containers of the live pods. -/
def liveContainers (pods : List Pod) : List Container := (livePods pods).flatMap Pod.containers

/-- Two lists of pods differ in the order of pods, in the order of containers within a pod, or by
pods that have ended. -/
inductive Rearranged : List Pod → List Pod → Prop
  | pods {ps qs : List Pod} : ps.Perm qs → Rearranged ps qs
  | containers {p : Pod} {cs ds : List Container} (ps : List Pod) : p.spec = some cs → cs.Perm ds →
      Rearranged (p :: ps) ({ p with spec := some ds } :: ps)
  | ended {p : Pod} (ps : List Pod) : p.isTerminal = true → Rearranged (p :: ps) ps
  | symm {ps qs : List Pod} : Rearranged ps qs → Rearranged qs ps
  | trans {ps qs rs : List Pod} : Rearranged ps qs → Rearranged qs rs → Rearranged ps rs

theorem livePods_ended {p : Pod} (h : p.isTerminal = true) (ps : List Pod) :
    livePods (p :: ps) = livePods ps := List.filter_cons_of_neg (by simp [h])

theorem livePods_live {p : Pod} (h : p.isTerminal = false) (ps : List Pod) :
    livePods (p :: ps) = p :: livePods ps := List.filter_cons_of_pos (by simp [h])

/-- `Rearranged` lists have the same live containers in some order. -/
theorem Rearranged.live {ps qs : List Pod} (h : Rearranged ps qs) :
    (liveContainers ps).Perm (liveContainers qs) ∧
      (livePods ps).length = (livePods qs).length := by
  unfold liveContainers
  induction h with
  | pods h =>
      have live := h.filter fun p => !p.isTerminal
      exact ⟨live.flatMap_right _, live.length_eq⟩
  | @containers p cs ds ps hspec hperm =>
      have hown : p.containers = cs := by simp [Pod.containers, hspec]
      cases ht : p.isTerminal with
      | true =>
          rw [livePods_ended ht, livePods_ended (p := { p with spec := some ds }) ht]
          exact ⟨List.Perm.refl _, rfl⟩
      | false =>
          rw [livePods_live ht, livePods_live (p := { p with spec := some ds }) ht,
            List.flatMap_cons, List.flatMap_cons, hown]
          exact ⟨hperm.append_right _, rfl⟩
  | ended ps ht =>
      rw [livePods_ended ht]
      exact ⟨List.Perm.refl _, rfl⟩
  | symm _ ih => exact ⟨ih.1.symm, ih.2.symm⟩
  | trans _ _ ih ih' => exact ⟨ih.1.trans ih'.1, ih.2.trans ih'.2⟩

theorem ofPods_eq_ok {pods : List Pod} {u : Usage} :
    Usage.ofPods pods = .ok u ↔
      (∀ r, sumPods r (livePods pods) 0 = .ok (u.of r)) ∧ u.pods = (livePods pods).length := by
  have start : ∀ r, (Usage.zero.of r) = 0 := fun r => by cases r <;> rfl
  rw [Usage.ofPods_eq, foldlM_withPod_eq_ok]
  simp only [start]
  rw [show Usage.zero.pods = 0 from rfl, Int.zero_add]

theorem sumPods_live {r : Resource} {k : Nat} {pods : List Pod} (hk : k ≤ finestGrid)
    (h : Summable r k (liveContainers pods)) :
    ∃ z, sumPods r (livePods pods) 0 = .ok z ∧ z.Represents (total r (liveContainers pods)) := by
  have exact := sumPods_exact hk h.onGrid Decimal.represents_zero (onGrid_zero k)
    (by rw [abs_zero, zero_add]; exact h.small)
  rwa [zero_add] at exact

/-- **Usage is the exact sum of what live pods request, in any order.** The pods are counted. If
what they request of a resource is `Summable`, every partial sum is exact, over the pods and over
the containers of a pod. If this holds of both resources there is a usage, and lists that are
rearranged have the same one, so the same verdict. -/
theorem usage_exact (pods : List Pod) :
    (∀ u, Usage.ofPods pods = .ok u → u.pods = (livePods pods).length) ∧
      (∀ r, ∀ k ≤ finestGrid, Summable r k (liveContainers pods) →
        (∀ ps, ps <+: pods → ∀ u, Usage.ofPods ps = .ok u →
          (u.of r).Represents (total r (liveContainers ps))) ∧
        ∀ p ∈ livePods pods, ∀ cs, cs <+: p.containers →
          ∀ a, cs.foldlM Container.addTo .zero = .ok a → (a.of r).Represents (total r cs)) ∧
      ((∀ r, ∃ k ≤ finestGrid, Summable r k (liveContainers pods)) →
        (∃ u, Usage.ofPods pods = .ok u) ∧ ∀ qs, Rearranged pods qs →
          Usage.ofPods qs = Usage.ofPods pods ∧ ∀ p, verdictOn p qs = verdictOn p pods) := by
  refine ⟨fun u hu => (ofPods_eq_ok.mp hu).2, fun r k hk h => ⟨?_, ?_⟩, fun h => ?_⟩
  · intro ps hp u hu
    have within : (liveContainers ps).Sublist (liveContainers pods) :=
      ((hp.filter _).flatMap _).sublist
    obtain ⟨z, hz, hrep⟩ := sumPods_live hk (h.sublist within)
    rwa [Except.ok.inj ((ofPods_eq_ok.mp hu).1 r |>.symm.trans hz)]
  · intro p hp cs hcs a ha
    have within : cs.Sublist (liveContainers pods) :=
      hcs.sublist.trans (List.sublist_flatten_of_mem (List.mem_map_of_mem hp))
    have own := h.sublist within
    obtain ⟨z, hz, hrep, _⟩ := sumRequests_exact hk own.onGrid Decimal.represents_zero
      (onGrid_zero k) (by rw [abs_zero, zero_add]; exact own.small)
    rw [zero_add] at hrep
    have hsum := foldlM_addTo_eq_ok.mp ha r
    rw [show Amounts.zero.of r = 0 by cases r <;> rfl] at hsum
    rwa [Except.ok.inj (hsum.symm.trans hz)]
  · have usage : ∀ qs, Rearranged pods qs → ∃ u, Usage.ofPods qs = .ok u ∧
        (∀ r, (u.of r).Represents (total r (liveContainers pods))) ∧
        u.pods = (livePods pods).length := by
      intro qs hqs
      obtain ⟨hperm, hlength⟩ := hqs.live
      have columns : ∀ r, ∃ z, sumPods r (livePods qs) 0 = .ok z ∧
          z.Represents (total r (liveContainers pods)) := by
        intro r
        obtain ⟨k, hk, hr⟩ := h r
        rw [total_perm r hperm]
        exact sumPods_live hk (hr.perm hperm)
      obtain ⟨a, ha⟩ := (Amounts.exists_iff (P := fun r z => sumPods r (livePods qs) 0 = .ok z ∧
        z.Represents (total r (liveContainers pods)))).mpr columns
      refine ⟨⟨a, (livePods qs).length⟩, ofPods_eq_ok.mpr ⟨fun r => (ha r).1, rfl⟩,
        fun r => (ha r).2, ?_⟩
      rw [hlength]
    obtain ⟨u, hu, hrep, hcount⟩ := usage pods (.pods (List.Perm.refl _))
    refine ⟨⟨u, hu⟩, fun qs hqs => ?_⟩
    obtain ⟨v, hv, hrep', hcount'⟩ := usage qs hqs
    have same : v = u := by
      have hamounts := Amounts.ext_of fun r => (hrep' r).unique (hrep r)
      cases u
      cases v
      cases hamounts
      cases hcount.trans hcount'.symm
      rfl
    have husage : Usage.ofPods qs = Usage.ofPods pods := by rw [hv, hu, same]
    exact ⟨husage, fun p => by rw [verdictOn, verdictOn, husage]⟩

/-- Two live pods and one that has ended. Listed in another order, without the one that has ended
and with the containers of a pod exchanged, they have the same usage. -/
theorem usage_exact_reordered :
    let front : Container := ⟨"front", some [("cpu", "250m"), ("memory", "64Mi")]⟩
    let side : Container := ⟨"side", some [("cpu", "0.1")]⟩
    let main : Container := ⟨"main", some [("memory", "1Ki"), ("cpu", "1.5")]⟩
    let web : Pod := ⟨some ⟨some "web", some "team-a", none, none⟩, some [front, side], none⟩
    let past : Pod := ⟨none, some [main], some ⟨some "Succeeded"⟩⟩
    let worker : Pod := ⟨none, some [main], none⟩
    let pods := [web, past, worker]
    let others := [worker, { web with spec := some [side, front] }]
    Summable .cpu 2 (liveContainers pods) ∧ Summable .memory 0 (liveContainers pods) ∧
      Rearranged pods others ∧ Usage.ofPods others = Usage.ofPods pods ∧
      ∃ u, Usage.ofPods pods = .ok u ∧ u.cpu.value = 1.85 ∧ u.memory.value = 67109888 ∧
        u.pods = 2 := by
  intro front side main web past worker pods others
  have live : liveContainers pods = [front, side, main] := by decide +kernel
  have frontCpu : front.requested .cpu = .ok (.finite 25 (-2)) :=
    eq_ok_of_toOption (by decide +kernel)
  have sideCpu : side.requested .cpu = .ok (.finite 1 (-1)) :=
    eq_ok_of_toOption (by decide +kernel)
  have mainCpu : main.requested .cpu = .ok (.finite 15 (-1)) :=
    eq_ok_of_toOption (by decide +kernel)
  have frontMemory : front.requested .memory = .ok (.finite 67108864 0) :=
    eq_ok_of_toOption (by decide +kernel)
  have sideMemory : side.requested .memory = .ok (.finite 0 0) :=
    eq_ok_of_toOption (by decide +kernel)
  have mainMemory : main.requested .memory = .ok (.finite 1024 0) :=
    eq_ok_of_toOption (by decide +kernel)
  have cores : Summable .cpu 2 (liveContainers pods) := by
    rw [live]
    refine ⟨?_, ?_⟩
    · simp only [List.forall_mem_cons, List.not_mem_nil, false_implies, implies_true, and_true]
      exact ⟨⟨_, frontCpu, rfl, 25, by norm_num [Decimal.value]⟩,
        ⟨_, sideCpu, rfl, 10, by norm_num [Decimal.value]⟩,
        ⟨_, mainCpu, rfl, 150, by norm_num [Decimal.value]⟩⟩
    · norm_num [magnitude, Container.amount, frontCpu, sideCpu, mainCpu, Decimal.value]
  have bytes : Summable .memory 0 (liveContainers pods) := by
    rw [live]
    refine ⟨?_, ?_⟩
    · simp only [List.forall_mem_cons, List.not_mem_nil, false_implies, implies_true, and_true]
      exact ⟨⟨_, frontMemory, rfl, 67108864, by norm_num [Decimal.value]⟩,
        ⟨_, sideMemory, rfl, 0, by norm_num [Decimal.value]⟩,
        ⟨_, mainMemory, rfl, 1024, by norm_num [Decimal.value]⟩⟩
    · norm_num [magnitude, Container.amount, frontMemory, sideMemory, mainMemory, Decimal.value]
  have rearranged : Rearranged pods others := by
    have dropped : Rearranged pods [web, worker] :=
      .trans (.pods (List.Perm.swap past web [worker])) (.ended [web, worker] (by decide))
    have exchanged : Rearranged [web, worker] [{ web with spec := some [side, front] }, worker] :=
      .containers [worker] rfl (List.Perm.swap side front [])
    exact .trans dropped (.trans exchanged (.pods (List.Perm.swap worker _ [])))
  obtain ⟨counted, summed, ordered⟩ := usage_exact pods
  obtain ⟨⟨u, hu⟩, same⟩ := ordered (Resource.forall_iff.mpr
    ⟨⟨2, by decide, cores⟩, ⟨0, by decide, bytes⟩⟩)
  have cpu := ((summed .cpu 2 (by decide) cores).1 pods (List.prefix_refl _) u hu).value_eq
  have memory := ((summed .memory 0 (by decide) bytes).1 pods (List.prefix_refl _) u hu).value_eq
  refine ⟨cores, bytes, rearranged, (same others rearranged).1, u, hu, cpu.trans ?_,
    memory.trans ?_, counted u hu⟩
  · rw [live]
    norm_num [total, Container.amount, frontCpu, sideCpu, mainCpu, Decimal.value]
  · rw [live]
    norm_num [total, Container.amount, frontMemory, sideMemory, mainMemory, Decimal.value]

end QuotaWarden
