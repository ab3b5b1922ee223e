import QuotaWarden.Eviction
import QuotaWarden.Proofs.Sorting
import Mathlib.Data.Int.ConditionallyCompleteOrder
import Mathlib.Data.List.Nodup
import Mathlib.Data.Prod.Lex
import Mathlib.Data.String.Basic
import Mathlib.Order.ConditionallyCompleteLattice.Basic
import Mathlib.Order.OrderDual
import Mathlib.Order.WithBot

/-! # The pods that are chosen

`Pod.age` is the place of a pod in the order of eviction: its time of creation, then its name. With
a live pod that has metadata a victim is found (`selectVictim_ok`): one of the least age against too
many pods, one of the greatest against too many cores or bytes.

Where no two live pods have one name (`DistinctNames`), ages differ. So the victim is the only pod
of its age, and the choice is one of the set of live pods (`selectVictim_extremal`). -/

namespace QuotaWarden

/-- The time of creation and the name of a pod, in this order. -/
def Pod.age (q : Pod) : Int ×ₗ String :=
  toLex ((q.metadata.bind (·.created)).getD Pod.earliest, (q.metadata.bind (·.name)).getD "")

theorem AgeKey.before_iff {x y : AgeKey} : x.before y = true ↔ toLex x < toLex y := by
  rw [Prod.Lex.lt_iff]
  simp [AgeKey.before]

variable {pods : List Pod}

theorem firstLeast?_ok {xs : List (AgeKey × Pod)} (h : xs ≠ []) :
    ∃ e ∈ xs, firstLeast? xs = some e.2 ∧ ∀ y ∈ xs, toLex e.1 ≤ toLex y.1 := by
  obtain ⟨x, r, rfl⟩ := List.exists_cons_of_ne_nil h
  obtain ⟨hmem, hle⟩ := foldl_least (fun e : AgeKey × Pod => toLex e.1) x r
  simp only [← AgeKey.before_iff] at hmem hle
  exact ⟨_, hmem, rfl, hle⟩

theorem firstGreatest?_ok {xs : List (AgeKey × Pod)} (h : xs ≠ []) :
    ∃ e ∈ xs, firstGreatest? xs = some e.2 ∧ ∀ y ∈ xs, toLex y.1 ≤ toLex e.1 := by
  obtain ⟨x, r, rfl⟩ := List.exists_cons_of_ne_nil h
  obtain ⟨hmem, hle⟩ := foldl_least (fun e : AgeKey × Pod => OrderDual.toDual (toLex e.1)) x r
  simp only [OrderDual.toDual_lt_toDual, OrderDual.toDual_le_toDual, ← AgeKey.before_iff]
    at hmem hle
  exact ⟨_, hmem, rfl, hle⟩

/-! ### Victims -/

theorem withAgeKeys_ok (h : ∀ q ∈ pods, q.metadata ≠ none) :
    withAgeKeys pods = .ok (pods.map fun q => (ofLex q.age, q)) := by
  unfold withAgeKeys
  induction pods with
  | nil => rfl
  | cons q r ih =>
      rw [List.forall_mem_cons] at h
      obtain ⟨m, hm⟩ := Option.ne_none_iff_exists'.mp h.1
      rw [List.mapM_cons, ih h.2]
      simp [Pod.ageKey?, Pod.age, hm, bind, Except.bind, pure, Except.pure]

theorem withAgeKeys_pods {entries : List (AgeKey × Pod)} (h : withAgeKeys pods = .ok entries) :
    entries.map (·.2) = pods := by
  induction pods generalizing entries with
  | nil =>
      obtain rfl : [] = entries := by simpa [withAgeKeys, pure, Except.pure] using h
      rfl
  | cons q r ih =>
      have e : withAgeKeys (q :: r) = do
          let k ← q.ageKey?
          let rest ← withAgeKeys r
          return (k, q) :: rest := by
        simp [withAgeKeys, List.mapM_cons]
      rw [e] at h
      cases hk : q.ageKey? with
      | error f => simp [hk, bind, Except.bind] at h
      | ok k =>
          cases hr : withAgeKeys r with
          | error f => simp [hk, hr, bind, Except.bind] at h
          | ok rest =>
              obtain rfl : (k, q) :: rest = entries := by
                simpa [hk, hr, bind, Except.bind, pure, Except.pure] using h
              rw [List.map_cons, ih hr]

theorem exists_pick {reason : Reason} (hr : reason ≠ .none) :
    ∃ pick : List (AgeKey × Pod) → Option Pod, pick [] = none ∧
      (∀ {xs}, xs ≠ [] → ∃ e ∈ xs, pick xs = some e.2) ∧
      ∀ pods, selectVictim pods reason = (withAgeKeys (livePods pods)).map pick := by
  have least : ∀ {xs : List (AgeKey × Pod)}, xs ≠ [] → ∃ e ∈ xs, firstLeast? xs = some e.2 := by
    intro xs hx
    obtain ⟨e, he, hp, _⟩ := firstLeast?_ok hx
    exact ⟨e, he, hp⟩
  have greatest : ∀ {xs : List (AgeKey × Pod)}, xs ≠ [] →
      ∃ e ∈ xs, firstGreatest? xs = some e.2 := by
    intro xs hx
    obtain ⟨e, he, hp, _⟩ := firstGreatest?_ok hx
    exact ⟨e, he, hp⟩
  cases reason with
  | none => exact absurd rfl hr
  | pods => exact ⟨firstLeast?, rfl, least, fun _ => rfl⟩
  | cpu => exact ⟨firstGreatest?, rfl, greatest, fun _ => rfl⟩
  | memory => exact ⟨firstGreatest?, rfl, greatest, fun _ => rfl⟩

theorem selectVictim_mem {reason : Reason} {victim : Pod}
    (h : selectVictim pods reason = .ok (some victim)) : victim ∈ pods := by
  by_cases hr : reason = .none
  · simp [hr, selectVictim] at h
  obtain ⟨pick, hnone, hpick, hselect⟩ := exists_pick hr
  rw [hselect] at h
  cases hk : withAgeKeys (livePods pods) with
  | error f => simp [hk, Except.map] at h
  | ok entries =>
      have chosen : pick entries = some victim := by simpa [hk, Except.map] using h
      have nonempty : entries ≠ [] := by
        rintro rfl
        exact absurd (hnone.symm.trans chosen) (by simp)
      obtain ⟨e, he, hpe⟩ := hpick nonempty
      obtain rfl : e.2 = victim := Option.some.inj (hpe.symm.trans chosen)
      have live : e.2 ∈ livePods pods := by
        rw [← withAgeKeys_pods hk]
        exact List.mem_map_of_mem he
      exact (mem_livePods.mp live).1

theorem selectVictim_ne_none (hne : livePods pods ≠ []) {reason : Reason} (hr : reason ≠ .none) :
    selectVictim pods reason ≠ .ok none := by
  obtain ⟨pick, _, hpick, hselect⟩ := exists_pick hr
  intro h
  rw [hselect] at h
  cases hk : withAgeKeys (livePods pods) with
  | error f => simp [hk, Except.map] at h
  | ok entries =>
      have nonempty : entries ≠ [] := by
        rintro rfl
        exact hne (withAgeKeys_pods hk).symm
      obtain ⟨e, _, hpe⟩ := hpick nonempty
      simp [hk, Except.map, hpe] at h

/-- `selectVictim` gives a live pod of the least `age` for `Reason.pods`, of the greatest for
others. -/
theorem selectVictim_ok (hm : ∀ q ∈ livePods pods, q.metadata ≠ none) (hne : livePods pods ≠ [])
    {reason : Reason} (hr : reason ≠ .none) :
    ∃ victim ∈ livePods pods, selectVictim pods reason = .ok (some victim) ∧
      (reason = .pods → ∀ q ∈ livePods pods, victim.age ≤ q.age) ∧
      (reason ≠ .pods → ∀ q ∈ livePods pods, q.age ≤ victim.age) := by
  have keyed : (livePods pods).map (fun q => (ofLex q.age, q)) ≠ [] := by simpa using hne
  have least : ∃ victim ∈ livePods pods,
      (withAgeKeys (livePods pods)).map firstLeast? = .ok (some victim) ∧
        ∀ q ∈ livePods pods, victim.age ≤ q.age := by
    obtain ⟨e, he, hv, hle⟩ := firstLeast?_ok keyed
    obtain ⟨victim, hmem, rfl⟩ := List.mem_map.mp he
    refine ⟨victim, hmem, by rw [withAgeKeys_ok hm, Except.map, hv], ?_⟩
    intro q hq
    exact hle _ (List.mem_map.mpr ⟨q, hq, rfl⟩)
  have greatest : ∃ victim ∈ livePods pods,
      (withAgeKeys (livePods pods)).map firstGreatest? = .ok (some victim) ∧
        ∀ q ∈ livePods pods, q.age ≤ victim.age := by
    obtain ⟨e, he, hv, hle⟩ := firstGreatest?_ok keyed
    obtain ⟨victim, hmem, rfl⟩ := List.mem_map.mp he
    refine ⟨victim, hmem, by rw [withAgeKeys_ok hm, Except.map, hv], ?_⟩
    intro q hq
    exact hle _ (List.mem_map.mpr ⟨q, hq, rfl⟩)
  obtain ⟨oldest, holdest, hselect, hle⟩ := least
  obtain ⟨newest, hnewest, hselect', hle'⟩ := greatest
  cases reason with
  | none => exact absurd rfl hr
  | pods => exact ⟨oldest, holdest, hselect, fun _ => hle, fun h => absurd rfl h⟩
  | cpu => exact ⟨newest, hnewest, hselect', nofun, fun _ => hle'⟩
  | memory => exact ⟨newest, hnewest, hselect', nofun, fun _ => hle'⟩

/-! ### Choices from a set -/

/-- The name of a pod, empty where it has none. -/
def Pod.nameText (q : Pod) : String := (q.metadata.bind (·.name)).getD ""

/-- No two live pods have one name. -/
def DistinctNames (pods : List Pod) : Prop := ((livePods pods).map Pod.nameText).Nodup

theorem eq_of_age_eq (hn : DistinctNames pods) {q r : Pod} (hq : q ∈ livePods pods)
    (hr : r ∈ livePods pods) (h : q.age = r.age) : q = r :=
  List.inj_on_of_nodup_map hn hq hr (congrArg (fun age => (ofLex age).2) h)

theorem selectVictim_eq_none_iff (pods : List Pod) (reason : Reason) :
    selectVictim pods reason = .ok none ↔ reason = .none ∨ livePods pods = [] := by
  constructor
  · intro h
    by_contra hne
    rw [not_or] at hne
    exact selectVictim_ne_none hne.2 hne.1 h
  · rintro (rfl | hnone)
    · rfl
    · cases reason with
      | none => rfl
      | pods => rw [selectVictim, hnone]; rfl
      | cpu => rw [selectVictim, hnone]; rfl
      | memory => rw [selectVictim, hnone]; rfl

/-- Whether a pod goes before another one for a reason: the older one if there are too many pods,
else the newer one. -/
def Pod.GoesBefore (reason : Reason) (q r : Pod) : Prop :=
  if reason = .pods then q.age < r.age else r.age < q.age

/-- The victim `GoesBefore` all other live pods. -/
theorem selectVictim_first (hm : ∀ q ∈ livePods pods, q.metadata ≠ none) (hn : DistinctNames pods)
    (hne : livePods pods ≠ []) {reason : Reason} (hr : reason ≠ .none) :
    ∃ victim ∈ livePods pods, selectVictim pods reason = .ok (some victim) ∧
      ∀ q ∈ livePods pods, q ≠ victim → victim.GoesBefore reason q := by
  obtain ⟨victim, hv, hselect, hleast, hgreatest⟩ := selectVictim_ok hm hne hr
  refine ⟨victim, hv, hselect, fun q hq hdiffers => ?_⟩
  have ages : q.age ≠ victim.age := fun h => hdiffers (eq_of_age_eq hn hq hv h)
  unfold Pod.GoesBefore
  split
  · next hpods => exact lt_of_le_of_ne (hleast hpods q hq) ages.symm
  · next hpods => exact lt_of_le_of_ne (hgreatest hpods q hq) ages

theorem Pod.GoesBefore.asymm {reason : Reason} {q r : Pod} (h : q.GoesBefore reason r) :
    ¬ r.GoesBefore reason q := by
  unfold GoesBefore at h ⊢
  split
  · next hpods => rw [if_pos hpods] at h; exact lt_asymm h
  · next hpods => rw [if_neg hpods] at h; exact lt_asymm h

/-- **The victim is an extreme of the live pods, whatever their order.** The choice is empty exactly
without a reason or a live pod. Else, where live pods have metadata and differ in their names, it is
the one that goes before all others: the least by time of creation and then by name if there are too
many pods, the greatest if there are too many cores or bytes. A list with the same live pods in any
order, with or without pods that have ended, has the same victim. -/
theorem selectVictim_extremal (hm : ∀ q ∈ livePods pods, q.metadata ≠ none)
    (hn : DistinctNames pods) (reason : Reason) :
    (selectVictim pods reason = .ok none ↔ reason = .none ∨ livePods pods = []) ∧
      (reason ≠ .none → livePods pods ≠ [] →
        ∃ victim ∈ livePods pods, selectVictim pods reason = .ok (some victim) ∧
          ∀ q ∈ livePods pods, q ≠ victim → victim.GoesBefore reason q) ∧
      ∀ others, (livePods others).Perm (livePods pods) →
        selectVictim others reason = selectVictim pods reason := by
  refine ⟨selectVictim_eq_none_iff pods reason, fun hr hne => selectVictim_first hm hn hne hr, ?_⟩
  intro others hperm
  by_cases hnone : reason = .none ∨ livePods pods = []
  · have hnone' : reason = .none ∨ livePods others = [] :=
      hnone.imp id fun h => List.perm_nil.mp (by rwa [h] at hperm)
    rw [(selectVictim_eq_none_iff pods reason).mpr hnone,
      (selectVictim_eq_none_iff others reason).mpr hnone']
  · obtain ⟨hr, hne⟩ := not_or.mp hnone
    have hne' : livePods others ≠ [] := fun h => hne (List.nil_perm.mp (by rwa [h] at hperm))
    obtain ⟨victim, hv, hselect, first⟩ := selectVictim_first hm hn hne hr
    obtain ⟨victim', hv', hselect', first'⟩ := selectVictim_first
      (fun q hq => hm q (hperm.mem_iff.mp hq)) ((hperm.map Pod.nameText).nodup_iff.mpr hn) hne' hr
    have same : victim' = victim := by
      by_contra hdiffers
      have before := first victim' (hperm.mem_iff.mp hv') hdiffers
      exact before.asymm (first' victim (hperm.mem_iff.mpr hv) (Ne.symm hdiffers))
    rw [hselect, hselect', same]

/-- Four pods: one without a time of creation, two of one time, and one that has ended and would be
the extreme on both ends. In another order, without the one that has ended, the victims are the
same. -/
theorem selectVictim_extremal_ended :
    let pod (name phase : String) (created : Option Int) : Pod :=
      ⟨some ⟨some name, some "team-a", none, created⟩, none, some ⟨some phase⟩⟩
    let web := pod "web" "Running" (some 30)
    let cache := pod "cache" "Running" (some 30)
    let batch := pod "batch" "Pending" none
    let pods := [web, pod "zeta" "Succeeded" (some 90), batch, cache]
    let others := [batch, cache, web]
    (∀ q ∈ livePods pods, q.metadata ≠ none) ∧ DistinctNames pods ∧
      (livePods others).Perm (livePods pods) ∧
      selectVictim others .pods = .ok (some batch) ∧
      selectVictim others .memory = .ok (some web) := by
  intro pod web cache batch pods others
  have metadata : ∀ q ∈ livePods pods, q.metadata ≠ none := by decide
  have names : DistinctNames pods := by
    unfold DistinctNames
    decide
  have perm : (livePods others).Perm (livePods pods) := by decide
  obtain ⟨_, _, counted⟩ := selectVictim_extremal metadata names .pods
  obtain ⟨_, _, summed⟩ := selectVictim_extremal metadata names .memory
  have entries : withAgeKeys (livePods pods) =
      .ok [((30, "web"), web), ((Pod.earliest, "batch"), batch), ((30, "cache"), cache)] := rfl
  have newest : selectVictim pods .memory = .ok (some web) := by
    simp [selectVictim, entries, Except.map, firstGreatest?,
      show AgeKey.before (30, "web") (Pod.earliest, "batch") = false by decide,
      show AgeKey.before (30, "web") (30, "cache") = false by decide]
  exact ⟨metadata, names, perm, (counted others perm).trans rfl, (summed others perm).trans newest⟩

/-- The time of creation and the name of a pod, a missing time before all others. -/
def Pod.ageFromNothing (q : Pod) : WithBot Int ×ₗ String :=
  toLex (q.metadata.bind (·.created), q.nameText)

/-- A missing time does not come before all others: it is level with the earliest one, and the name
decides. -/
theorem selectVictim_level :
    let dated : Pod := ⟨some ⟨some "a", none, none, some Pod.earliest⟩, none, none⟩
    let undated : Pod := ⟨some ⟨some "b", none, none, none⟩, none, none⟩
    let pods := [dated, undated]
    (∀ q ∈ pods, q.metadata ≠ none) ∧ DistinctNames pods ∧ dated ∈ livePods pods ∧
      undated.ageFromNothing < dated.ageFromNothing ∧
      ¬ ∃ victim ∈ livePods pods, selectVictim pods .pods = .ok (some victim) ∧
        ∀ q ∈ livePods pods, q ≠ victim → victim.ageFromNothing < q.ageFromNothing := by
  intro dated undated pods
  have before : undated.ageFromNothing < dated.ageFromNothing :=
    Prod.Lex.toLex_lt_toLex.mpr (Or.inl (WithBot.bot_lt_coe Pod.earliest))
  refine ⟨by decide, by unfold DistinctNames; decide, by decide, before, ?_⟩
  rintro ⟨victim, _, hselect, least⟩
  have entries : withAgeKeys (livePods pods) =
      .ok [((Pod.earliest, "a"), dated), ((Pod.earliest, "b"), undated)] := rfl
  have chosen : selectVictim pods .pods = .ok (some dated) := by
    simp [selectVictim, entries, Except.map, firstLeast?,
      show AgeKey.before (Pod.earliest, "b") (Pod.earliest, "a") = false by decide]
  obtain rfl : dated = victim := Option.some.inj (Except.ok.inj (chosen.symm.trans hselect))
  exact lt_asymm before (least undated (by decide) (by decide))

end QuotaWarden
