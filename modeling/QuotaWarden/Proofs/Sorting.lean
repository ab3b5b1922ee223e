import QuotaWarden.Key
import Mathlib.Order.Lattice

/-! # Sorting and least members

`sortOrdered` and `leastOrdered` work with an order that may fail. Where it does not, they sort by a
key: `sortOrdered_ok` gives the members in order, and `sortOrdered_strict` says that the least
member is the first one in order if no two members have one key.

A list in strict order is determined by its members (`eq_of_strictly_sorted`). -/

namespace QuotaWarden

/-! ### Extremes -/

section extremes

variable {α β : Type} [LinearOrder β] (key : α → β)

/-- A fold that keeps the first of the least members. -/
theorem foldl_least (x : α) (r : List α) :
    let best := r.foldl (fun best y => if key y < key best then y else best) x
    best ∈ x :: r ∧ ∀ y ∈ x :: r, key best ≤ key y := by
  induction r generalizing x with
  | nil => simp
  | cons y r ih =>
      obtain ⟨hmem, hle⟩ := ih (if key y < key x then y else x)
      rw [List.forall_mem_cons] at hle
      rw [List.foldl_cons]
      constructor
      · rcases List.mem_cons.mp hmem with h | h
        · rw [h]
          split <;> simp
        · exact List.mem_cons_of_mem _ (List.mem_cons_of_mem _ h)
      · have hboth : key (if key y < key x then y else x) ≤ key x ∧
            key (if key y < key x then y else x) ≤ key y := by
          split
          · next h => exact ⟨h.le, le_refl _⟩
          · next h => exact ⟨le_refl _, not_lt.mp h⟩
        rw [List.forall_mem_cons, List.forall_mem_cons]
        exact ⟨hle.1.trans hboth.1, hle.1.trans hboth.2, hle.2⟩

/-- A list in strict order is determined by its members. -/
theorem eq_of_strictly_sorted {xs ys : List α} (hx : xs.Pairwise (key · < key ·))
    (hy : ys.Pairwise (key · < key ·)) (h : ∀ x, x ∈ xs ↔ x ∈ ys) : xs = ys := by
  have nodup : ∀ {zs : List α}, zs.Pairwise (key · < key ·) → zs.Nodup := fun hz =>
    hz.imp fun hlt heq => absurd (congrArg key heq) hlt.ne
  have perm : xs.Perm ys := (List.perm_ext_iff_of_nodup (nodup hx) (nodup hy)).mpr h
  exact perm.eq_of_pairwise (fun _ _ _ _ hlt hgt => absurd hlt hgt.asymm) hx hy

end extremes

/-! ### Sorting by an order that may fail -/

section sorting

variable {α β ε : Type} [LinearOrder β] (before : α → α → Except ε Bool) (key : α → β)

theorem insertOrdered_ok (x : α) (xs : List α)
    (h : ∀ y ∈ xs, before y x = .ok (decide (key y < key x))) :
    ∃ ys, insertOrdered before x xs = .ok ys ∧ ys.Perm (x :: xs) ∧
      (xs.Pairwise (key · ≤ key ·) → ys.Pairwise (key · ≤ key ·)) := by
  induction xs with
  | nil => exact ⟨[x], rfl, List.Perm.refl _, fun _ => List.pairwise_singleton _ _⟩
  | cons y r ih =>
      have hy := h y List.mem_cons_self
      by_cases hlt : key y < key x
      · obtain ⟨ys, e, perm, sorted⟩ := ih fun z hz => h z (List.mem_cons_of_mem _ hz)
        refine ⟨y :: ys, ?_, (perm.cons y).trans (List.Perm.swap x y r), ?_⟩
        · simp [insertOrdered, hy, hlt, e, bind, Except.bind, pure, Except.pure]
        · intro hs
          obtain ⟨hyr, hr⟩ := List.pairwise_cons.mp hs
          refine List.pairwise_cons.mpr ⟨?_, sorted hr⟩
          intro z hz
          rcases List.mem_cons.mp (perm.mem_iff.mp hz) with rfl | hz
          · exact hlt.le
          · exact hyr z hz
      · refine ⟨x :: y :: r, ?_, List.Perm.refl _, ?_⟩
        · simp [insertOrdered, hy, hlt, bind, Except.bind, pure, Except.pure]
        · intro hs
          refine List.pairwise_cons.mpr ⟨?_, hs⟩
          intro z hz
          have hxy : key x ≤ key y := not_lt.mp hlt
          rcases List.mem_cons.mp hz with rfl | hz
          · exact hxy
          · exact hxy.trans ((List.pairwise_cons.mp hs).1 z hz)

theorem sortOrdered_ok (xs : List α)
    (h : ∀ x ∈ xs, ∀ y ∈ xs, before y x = .ok (decide (key y < key x))) :
    ∃ ys, sortOrdered before xs = .ok ys ∧ ys.Perm xs ∧ ys.Pairwise (key · ≤ key ·) := by
  induction xs with
  | nil => exact ⟨[], rfl, List.Perm.refl _, List.Pairwise.nil⟩
  | cons x r ih =>
      obtain ⟨ys, e, perm, sorted⟩ := ih fun a ha b hb =>
        h a (List.mem_cons_of_mem _ ha) b (List.mem_cons_of_mem _ hb)
      obtain ⟨zs, e', perm', sorted'⟩ := insertOrdered_ok before key x ys
        fun y hy => h x List.mem_cons_self y (List.mem_cons_of_mem _ (perm.mem_iff.mp hy))
      refine ⟨zs, ?_, perm'.trans (perm.cons x), sorted' sorted⟩
      rw [sortOrdered, e]
      exact e'

omit [LinearOrder β] in
theorem insertOrdered_perm {x : α} {xs ys : List α} (h : insertOrdered before x xs = .ok ys) :
    ys.Perm (x :: xs) := by
  induction xs generalizing ys with
  | nil =>
      obtain rfl := Except.ok.inj h
      exact List.Perm.refl _
  | cons y r ih =>
      unfold insertOrdered at h
      cases hy : before y x with
      | error e => simp [hy, bind, Except.bind] at h
      | ok b =>
          cases b with
          | false =>
              obtain rfl : x :: y :: r = ys := by
                simpa [hy, bind, Except.bind, pure, Except.pure] using h
              exact List.Perm.refl _
          | true =>
              cases hr : insertOrdered before x r with
              | error e => simp [hy, hr, bind, Except.bind] at h
              | ok zs =>
                  obtain rfl : y :: zs = ys := by
                    simpa [hy, hr, bind, Except.bind, pure, Except.pure] using h
                  exact ((ih hr).cons y).trans (List.Perm.swap x y r)

omit [LinearOrder β] in
theorem sortOrdered_perm {xs ys : List α} (h : sortOrdered before xs = .ok ys) : ys.Perm xs := by
  induction xs generalizing ys with
  | nil =>
      obtain rfl := Except.ok.inj h
      exact List.Perm.refl _
  | cons x r ih =>
      unfold sortOrdered at h
      cases hr : sortOrdered before r with
      | error e => simp [hr, bind, Except.bind] at h
      | ok zs =>
          have inserted : insertOrdered before x zs = .ok ys := by
            simpa [hr, bind, Except.bind] using h
          exact (insertOrdered_perm before inserted).trans ((ih hr).cons x)

theorem leastOrdered_ok (x : α) (r : List α)
    (h : ∀ a ∈ x :: r, ∀ b ∈ x :: r, before b a = .ok (decide (key b < key a))) :
    ∃ least ∈ x :: r, leastOrdered before (x :: r) = .ok (some least) ∧
      ∀ y ∈ x :: r, key least ≤ key y := by
  have fold : ∀ (s : List α) (best : α), best ∈ x :: r → (∀ y ∈ s, y ∈ x :: r) →
      s.foldlM (fun best y => do return if ← before y best then y else best) best =
        .ok (s.foldl (fun best y => if key y < key best then y else best) best) := by
    intro s
    induction s with
    | nil => intros; rfl
    | cons y s ih =>
        intro best hbest hs
        rw [List.forall_mem_cons] at hs
        rw [List.foldlM_cons, List.foldl_cons, h best hbest y hs.1]
        refine Eq.trans ?_ (ih _ ?_ hs.2)
        · by_cases hlt : key y < key best <;> simp [hlt, bind, Except.bind, pure, Except.pure]
        · split
          · exact hs.1
          · exact hbest
  obtain ⟨hmem, hle⟩ := foldl_least key x r
  refine ⟨_, hmem, ?_, hle⟩
  rw [leastOrdered, fold r x List.mem_cons_self fun y hy => List.mem_cons_of_mem _ hy]
  rfl

/-- Where keys differ, `sortOrdered` gives a strict order, with `leastOrdered` as its head. -/
theorem sortOrdered_strict (xs : List α)
    (h : ∀ x ∈ xs, ∀ y ∈ xs, before y x = .ok (decide (key y < key x)))
    (hne : xs.Pairwise (key · ≠ key ·)) :
    ∃ ys, sortOrdered before xs = .ok ys ∧ ys.Perm xs ∧ ys.Pairwise (key · < key ·) ∧
      leastOrdered before xs = .ok ys.head? := by
  obtain ⟨ys, e, perm, sorted⟩ := sortOrdered_ok before key xs h
  have strict : ys.Pairwise (key · < key ·) :=
    (sorted.and (perm.symm.pairwise hne fun hxy => hxy.symm)).imp fun hxy =>
      lt_of_le_of_ne hxy.1 hxy.2
  refine ⟨ys, e, perm, strict, ?_⟩
  cases xs with
  | nil =>
      rw [perm.eq_nil]
      rfl
  | cons x r =>
      obtain ⟨least, hmem, he, hle⟩ := leastOrdered_ok before key x r h
      rw [he]
      cases ys with
      | nil => exact absurd perm.symm.eq_nil (by simp)
      | cons y s =>
          rcases List.mem_cons.mp (perm.mem_iff.mpr hmem) with rfl | hs
          · rfl
          · have after := (List.pairwise_cons.mp strict).1 least hs
            exact absurd (hle y (perm.mem_iff.mp List.mem_cons_self)) (not_le.mpr after)

end sorting

end QuotaWarden
