import QuotaWarden.Proofs.Evaluation
import QuotaWarden.Proofs.Victims
import Mathlib.Data.List.Sort
import Mathlib.Data.Nat.Find

/-! # The order of eviction

Which pods an enforcement evicts, if nothing comes in between, can be read off the first listing.

* `oldestFirst` are the live pods by age; `Policy.surplus` is how many of them are too many.
* `evictionOrder` is the order in which pods go: the surplus, oldest first, then newest first.
* `survivors` are the pods that are left after so many evictions, and `Policy.evictions` is the
  number of evictions until they respect the policy.
* `victim_heads_order`: the victim of a listing is the head of its order, and without this pod the
  tail is the order, with one eviction less to go. -/

namespace QuotaWarden

open Number

/-! ### Order -/

/-- The live pods, the oldest one first. -/
def oldestFirst (pods : List Pod) : List Pod :=
  (livePods pods).insertionSort fun x y => x.age ≤ y.age

/-- No two live pods have one time of creation and one name. -/
def DistinctAges (pods : List Pod) : Prop := ((livePods pods).map Pod.age).Nodup

/-- The number of live pods above the limit. -/
def Policy.surplus (p : Policy) (pods : List Pod) : Nat :=
  if 0 < p.maxPods then (livePods pods).length - p.maxPods.toNat else 0

/-- The order in which pods are evicted. -/
def evictionOrder (p : Policy) (pods : List Pod) : List Pod :=
  (oldestFirst pods).take (p.surplus pods) ++ ((oldestFirst pods).drop (p.surplus pods)).reverse

/-- The pods that are left after so many evictions, in the order of the listing. -/
def survivors (p : Policy) (pods : List Pod) (n : Nat) : List Pod :=
  pods.filter fun q => decide (q ∉ (evictionOrder p pods).take n)

theorem oldestFirst_perm (pods : List Pod) : (oldestFirst pods).Perm (livePods pods) :=
  List.perm_insertionSort _ _

theorem mem_oldestFirst {q : Pod} {pods : List Pod} : q ∈ oldestFirst pods ↔ q ∈ livePods pods :=
  (oldestFirst_perm pods).mem_iff

variable {p : Policy} {pods : List Pod} {q : Pod}

theorem oldestFirst_sorted (h : DistinctAges pods) :
    (oldestFirst pods).Pairwise fun x y => x.age < y.age := by
  have total : Std.Total fun x y : Pod => x.age ≤ y.age := ⟨fun x y => le_total x.age y.age⟩
  have trans : IsTrans Pod fun x y => x.age ≤ y.age := ⟨fun _ _ _ => le_trans⟩
  have hle : (oldestFirst pods).Pairwise fun x y => x.age ≤ y.age :=
    List.pairwise_insertionSort _ _
  have hne : (oldestFirst pods).Pairwise fun x y => x.age ≠ y.age := by
    rw [← List.pairwise_map (f := Pod.age)]
    exact ((oldestFirst_perm pods).map Pod.age).nodup_iff.mpr h
  exact (hle.and hne).imp fun h => lt_of_le_of_ne h.1 h.2

theorem oldestFirst_eq {l : List Pod} (hd : DistinctAges pods) (hp : l.Perm (livePods pods))
    (hs : l.Pairwise fun x y => x.age < y.age) : oldestFirst pods = l :=
  ((oldestFirst_perm pods).trans hp.symm).eq_of_pairwise
    (fun _ _ _ _ hxy hyx => absurd hyx (not_lt_of_gt hxy)) (oldestFirst_sorted hd) hs

/-! ### Without one pod -/

/-- A list of pods without one of them. -/
def without (q : Pod) (pods : List Pod) : List Pod := pods.filter fun x => decide (x ≠ q)

theorem livePods_without : livePods (without q pods) = without q (livePods pods) := by
  unfold livePods without
  rw [List.filter_filter, List.filter_filter]
  exact List.filter_congr fun x _ => Bool.and_comm _ _

theorem distinctAges_without (h : DistinctAges pods) : DistinctAges (without q pods) := by
  unfold DistinctAges
  rw [livePods_without]
  exact h.sublist (List.filter_sublist.map Pod.age)

theorem oldestFirst_without (h : DistinctAges pods) :
    oldestFirst (without q pods) = without q (oldestFirst pods) := by
  refine oldestFirst_eq (distinctAges_without h) ?_ ((oldestFirst_sorted h).filter _)
  rw [livePods_without]
  exact (oldestFirst_perm pods).filter _

theorem without_of_sorted {l r : List Pod}
    (h : (l ++ q :: r).Pairwise fun x y => x.age < y.age) : without q (l ++ q :: r) = l ++ r := by
  obtain ⟨_, hqr, hlr⟩ := List.pairwise_append.mp h
  have keep : ∀ {xs : List Pod}, q ∉ xs → without q xs = xs := by
    intro xs hq
    refine List.filter_eq_self.mpr fun x hx => decide_eq_true ?_
    rintro rfl
    exact hq hx
  have hl : q ∉ l := fun hq => lt_irrefl _ (hlr q hq q List.mem_cons_self)
  have hr : q ∉ r := fun hq => lt_irrefl _ ((List.pairwise_cons.mp hqr).1 q hq)
  unfold without at keep ⊢
  rw [List.filter_append, List.filter_cons_of_neg (by simp), keep hl, keep hr]

theorem survivors_succ (h : evictionOrder p pods = q :: evictionOrder p (without q pods))
    (n : Nat) : survivors p pods (n + 1) = survivors p (without q pods) n := by
  unfold survivors
  rw [h, List.take_succ_cons, without, List.filter_filter]
  refine List.filter_congr fun x _ => ?_
  simp [List.mem_cons, not_or, Bool.and_comm]

theorem survivors_zero : survivors p pods 0 = pods := by
  simp [survivors]

/-! ### Heads -/

theorem oldestFirst_of_least (hd : DistinctAges pods) (hq : q ∈ livePods pods)
    (hle : ∀ x ∈ livePods pods, q.age ≤ x.age) :
    oldestFirst pods = q :: oldestFirst (without q pods) := by
  obtain ⟨l, r, e⟩ := List.append_of_mem (mem_oldestFirst.mpr hq)
  have hsorted := oldestFirst_sorted hd
  rw [e] at hsorted
  have hl : l = [] := by
    refine List.eq_nil_iff_forall_not_mem.mpr fun x hx => ?_
    have hxq := (List.pairwise_append.mp hsorted).2.2 x hx q List.mem_cons_self
    have hlive : x ∈ livePods pods := mem_oldestFirst.mp (by
      rw [e]
      exact List.mem_append_left _ hx)
    exact not_lt_of_ge (hle x hlive) hxq
  rw [oldestFirst_without hd, e, without_of_sorted hsorted, hl]
  rfl

theorem oldestFirst_of_greatest (hd : DistinctAges pods) (hq : q ∈ livePods pods)
    (hle : ∀ x ∈ livePods pods, x.age ≤ q.age) :
    oldestFirst pods = oldestFirst (without q pods) ++ [q] := by
  obtain ⟨l, r, e⟩ := List.append_of_mem (mem_oldestFirst.mpr hq)
  have hsorted := oldestFirst_sorted hd
  rw [e] at hsorted
  have hr : r = [] := by
    refine List.eq_nil_iff_forall_not_mem.mpr fun x hx => ?_
    have hqx := (List.pairwise_cons.mp (List.pairwise_append.mp hsorted).2.1).1 x hx
    have hlive : x ∈ livePods pods := mem_oldestFirst.mp (by
      rw [e]
      exact List.mem_append_right _ (List.mem_cons_of_mem _ hx))
    exact not_lt_of_ge (hle x hlive) hqx
  rw [oldestFirst_without hd, e, without_of_sorted hsorted, hr, List.append_nil]

theorem length_livePods_without (hd : DistinctAges pods) (hq : q ∈ livePods pods) :
    (livePods pods).length = (livePods (without q pods)).length + 1 := by
  obtain ⟨l, r, e⟩ := List.append_of_mem (mem_oldestFirst.mpr hq)
  have hsorted := oldestFirst_sorted hd
  rw [e] at hsorted
  rw [← (oldestFirst_perm pods).length_eq, ← (oldestFirst_perm (without q pods)).length_eq,
    oldestFirst_without hd, e, without_of_sorted hsorted]
  simp only [List.length_append, List.length_cons]
  omega

theorem surplus_without (hd : DistinctAges pods) (hq : q ∈ livePods pods) :
    p.surplus (without q pods) = p.surplus pods - 1 := by
  have := length_livePods_without hd hq
  unfold Policy.surplus
  split <;> omega

theorem evictionOrder_of_surplus (hd : DistinctAges pods) (hq : q ∈ livePods pods)
    (hle : ∀ x ∈ livePods pods, q.age ≤ x.age) (hs : 0 < p.surplus pods) :
    evictionOrder p pods = q :: evictionOrder p (without q pods) := by
  obtain ⟨n, hn⟩ := Nat.exists_eq_add_of_lt hs
  rw [Nat.zero_add] at hn
  unfold evictionOrder
  rw [surplus_without hd hq, hn, oldestFirst_of_least hd hq hle, Nat.add_sub_cancel]
  rfl

theorem evictionOrder_of_no_surplus (hd : DistinctAges pods) (hq : q ∈ livePods pods)
    (hle : ∀ x ∈ livePods pods, x.age ≤ q.age) (hs : p.surplus pods = 0) :
    evictionOrder p pods = q :: evictionOrder p (without q pods) := by
  unfold evictionOrder
  rw [surplus_without hd hq, hs, oldestFirst_of_greatest hd hq hle]
  simp

/-! ### Number -/

/-- Whether an amount is known to exceed a limit that is set. -/
def exceeded (amount limit : Decimal) : Bool :=
  match exceeds amount limit with
  | .ok above => above
  | .error _ => false

/-- Whether the pods of a list respect the limits on cores and bytes together. -/
def Policy.allows (p : Policy) (pods : List Pod) : Bool :=
  match Usage.ofPods pods with
  | .ok u => !exceeded u.cpu p.maxCpu && !exceeded u.memory p.maxMemory
  | .error _ => false

theorem exceeded_of_ok {amount limit : Decimal} {above : Bool}
    (h : exceeds amount limit = .ok above) : exceeded amount limit = above := by
  rw [exceeded, h]

theorem exceeded_zero (limit : Decimal) : exceeded 0 limit = false := by
  unfold exceeded
  split
  · next above h => exact Bool.eq_false_iff.mpr fun hover => exceeds_zero limit (hover ▸ h)
  · rfl

theorem allows_of_none (h : livePods pods = []) : p.allows pods = true := by
  have hzero : Usage.ofPods pods = .ok .zero := by
    rw [Usage.ofPods_eq, h]
    rfl
  have hcpu : exceeded Usage.zero.cpu p.maxCpu = false := exceeded_zero _
  have hmemory : exceeded Usage.zero.memory p.maxMemory = false := exceeded_zero _
  rw [Policy.allows, hzero]
  simp [hcpu, hmemory]

theorem evictionOrder_perm (p : Policy) (pods : List Pod) :
    (evictionOrder p pods).Perm (livePods pods) := by
  refine List.Perm.trans ?_ (oldestFirst_perm pods)
  conv_rhs => rw [← List.take_append_drop (p.surplus pods) (oldestFirst pods)]
  exact List.Perm.append_left _ (List.reverse_perm _)

/-- A list without its live pods is allowed. -/
theorem allows_survivors {n : Nat} (h : (livePods pods).length ≤ n) :
    p.allows (survivors p pods n) = true := by
  refine allows_of_none (List.eq_nil_iff_forall_not_mem.mpr fun x hx => ?_)
  obtain ⟨hmem, hlive⟩ := mem_livePods.mp hx
  obtain ⟨hpods, hleft⟩ := List.mem_filter.mp hmem
  rw [List.take_of_length_le (by rwa [(evictionOrder_perm p pods).length_eq]),
    decide_eq_true_iff, (evictionOrder_perm p pods).mem_iff] at hleft
  exact hleft (mem_livePods.mpr ⟨hpods, hlive⟩)

theorem exists_excess (p : Policy) (pods : List Pod) :
    ∃ n, p.allows (survivors p pods (p.surplus pods + n)) = true :=
  ⟨(livePods pods).length, allows_survivors (Nat.le_add_left _ _)⟩

/-- The least number of pods that must go after the surplus, for the limits on cores and bytes. -/
def Policy.excess (p : Policy) (pods : List Pod) : Nat := Nat.find (exists_excess p pods)

/-- The number of evictions until every limit is respected. -/
def Policy.evictions (p : Policy) (pods : List Pod) : Nat := p.surplus pods + p.excess pods

theorem evictions_le (p : Policy) (pods : List Pod) :
    p.evictions pods ≤ (evictionOrder p pods).length := by
  have hsurplus : p.surplus pods ≤ (livePods pods).length := by
    unfold Policy.surplus
    split <;> omega
  have hexcess : p.excess pods ≤ (livePods pods).length - p.surplus pods :=
    Nat.find_min' _ (allows_survivors (by omega))
  rw [(evictionOrder_perm p pods).length_eq]
  unfold Policy.evictions
  omega

theorem evictions_without (hd : DistinctAges pods) (hq : q ∈ livePods pods)
    (horder : evictionOrder p pods = q :: evictionOrder p (without q pods))
    (hover : 0 < p.surplus pods ∨ p.allows pods = false) :
    p.evictions pods = p.evictions (without q pods) + 1 := by
  have hsurplus := surplus_without (p := p) hd hq
  rcases Nat.eq_zero_or_pos (p.surplus pods) with hzero | hpos
  · have hfirst : ¬ p.allows (survivors p pods (p.surplus pods + 0)) = true := by
      rw [hzero, survivors_zero, hover.resolve_left (by omega)]
      exact Bool.false_ne_true
    have hnext : ∀ n, survivors p pods (p.surplus pods + (n + 1)) =
        survivors p (without q pods) (p.surplus (without q pods) + n) := by
      intro n
      rw [← survivors_succ horder]
      congr 1
      omega
    have hexcess : p.excess pods = p.excess (without q pods) + 1 := by
      have hex := exists_excess p (without q pods)
      simp only [← hnext] at hex
      refine (Nat.find_comp_succ (exists_excess p pods) hex hfirst).trans ?_
      congr 1
      exact Nat.find_congr' fun {n} => by rw [hnext]
    unfold Policy.evictions
    omega
  · have hexcess : p.excess pods = p.excess (without q pods) := by
      refine Nat.find_congr' fun {n} => ?_
      rw [← survivors_succ horder, hsurplus, show p.surplus pods - 1 + n + 1 = p.surplus pods + n by
        omega]
    unfold Policy.evictions
    omega

/-! ### Verdicts -/

theorem countExceeds_eq (p : Policy) (pods : List Pod) :
    countExceeds (livePods pods).length p.maxPods = decide (0 < p.surplus pods) := by
  unfold countExceeds Policy.surplus
  rw [Bool.eq_iff_iff]
  simp only [Bool.and_eq_true, decide_eq_true_eq]
  split <;> omega

theorem evictions_eq_zero :
    p.evictions pods = 0 ↔ p.surplus pods = 0 ∧ p.allows pods = true := by
  unfold Policy.evictions Policy.excess
  rw [Nat.add_eq_zero_iff, Nat.find_eq_zero]
  refine and_congr_right fun h => ?_
  rw [h, survivors_zero]

/-- The verdict on a listing tells whether `surplus` and `evictions` are zero. -/
theorem verdict_of_order (h : Moderate pods) (hp : p.Writable) :
    ∃ v, verdictOn p pods = .ok v ∧ Usage.ofPods pods = .ok v.usage ∧
      (v.reason = .pods ↔ 0 < p.surplus pods) ∧ (v.violated = false ↔ p.evictions pods = 0) := by
  obtain ⟨v, hv, hu, hj⟩ := verdictOn_ok h hp
  obtain ⟨u, hu', _, hcount⟩ := Usage.ofPods_ok h
  obtain rfl : u = v.usage := Except.ok.inj (hu'.symm.trans hu)
  have hallows : p.allows pods =
      (!exceeded v.usage.cpu p.maxCpu && !exceeded v.usage.memory p.maxMemory) := by
    rw [Policy.allows, hu]
  refine ⟨v, hv, hu, ?_⟩
  rw [evictions_eq_zero, hallows]
  cases hj with
  | pods above reason =>
      rw [hcount, countExceeds_eq, decide_eq_true_iff] at above
      simp [Verdict.violated, reason, above, Nat.ne_of_gt above]
  | cpu within above reason =>
      rw [hcount, countExceeds_eq, decide_eq_false_iff_not, Nat.not_lt, Nat.le_zero] at within
      simp [Verdict.violated, reason, within, exceeded_of_ok above]
  | memory within under above reason =>
      rw [hcount, countExceeds_eq, decide_eq_false_iff_not, Nat.not_lt, Nat.le_zero] at within
      simp [Verdict.violated, reason, within, exceeded_of_ok above]
  | compliant within under below reason =>
      rw [hcount, countExceeds_eq, decide_eq_false_iff_not, Nat.not_lt, Nat.le_zero] at within
      simp [Verdict.violated, reason, within, exceeded_of_ok under, exceeded_of_ok below]

/-- Pods that can be told apart by age, and evaluated as long as evictions are due. -/
structure Evictable (p : Policy) (pods : List Pod) : Prop where
  metadata : ∀ q ∈ livePods pods, q.metadata ≠ none
  distinct : DistinctAges pods
  moderate : ∀ n ≤ p.evictions pods, Moderate (survivors p pods n)

/-- A list is `Evictable` if its requests are below `10 ^ k`. -/
theorem evictable_of_requests {k : Int} (metadata : ∀ q ∈ livePods pods, q.metadata ≠ none)
    (distinct : DistinctAges pods) (hk : 0 ≤ k) (hsize : usageSize k < digitLimit)
    (hcount : pods.length < tenTo digitLimit)
    (h : ∀ q ∈ pods, ∀ c ∈ q.containers, c.RequestsBelow k) : Evictable p pods := by
  refine ⟨metadata, distinct, fun n _ => moderate_of_requests hk hsize ?_ ?_⟩
  · exact Nat.lt_of_le_of_lt (List.length_filter_le _ _) hcount
  · exact fun q hq => h q (List.mem_filter.mp hq).1

theorem Evictable.moderate_self (h : Evictable p pods) : Moderate pods := by
  have := h.moderate 0 (Nat.zero_le _)
  rwa [survivors_zero] at this

theorem Evictable.without (h : Evictable p pods)
    (horder : evictionOrder p pods = q :: evictionOrder p (without q pods))
    (hcount : p.evictions pods = p.evictions (without q pods) + 1) :
    Evictable p (QuotaWarden.without q pods) := by
  refine ⟨?_, distinctAges_without h.distinct, ?_⟩
  · intro x hx
    rw [livePods_without] at hx
    exact h.metadata x (List.mem_filter.mp hx).1
  · intro n hn
    rw [← survivors_succ horder]
    exact h.moderate (n + 1) (by omega)

/-- **The victim is the head of `evictionOrder`**, and `evictions` falls by one without it. -/
theorem victim_heads_order (h : Evictable p pods) (hp : p.Writable) {v : Verdict}
    (hv : verdictOn p pods = .ok v) (hviolated : v.violated = true) :
    ∃ q ∈ livePods pods, selectVictim pods v.reason = .ok (some q) ∧
      evictionOrder p pods = q :: evictionOrder p (without q pods) ∧
      p.evictions pods = p.evictions (without q pods) + 1 := by
  obtain ⟨v', hv', _, hpods, hdue⟩ := verdict_of_order h.moderate_self hp
  obtain rfl : v' = v := Except.ok.inj (hv'.symm.trans hv)
  obtain ⟨q, hq, hselect, hleast, hgreatest⟩ := selectVictim_ok h.metadata
    (livePods_of_violated hv hviolated) (Verdict.violated_iff.mp hviolated)
  refine ⟨q, hq, hselect, ?_⟩
  by_cases hs : 0 < p.surplus pods
  · have horder := evictionOrder_of_surplus h.distinct hq (hleast (hpods.mpr hs)) hs
    exact ⟨horder, evictions_without h.distinct hq horder (Or.inl hs)⟩
  · have hzero : p.surplus pods = 0 := by omega
    have horder :=
      evictionOrder_of_no_surplus h.distinct hq (hgreatest fun hr => hs (hpods.mp hr)) hzero
    have hallows : p.allows pods = false := by
      refine Bool.eq_false_iff.mpr fun hallows => ?_
      rw [hdue.mpr (evictions_eq_zero.mpr ⟨hzero, hallows⟩)] at hviolated
      exact Bool.false_ne_true hviolated
    exact ⟨horder, evictions_without h.distinct hq horder (Or.inr hallows)⟩

end QuotaWarden
