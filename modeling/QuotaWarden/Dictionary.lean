/-!
# Dictionaries in order of insertion

A dictionary is a list of keys with values. A key that is there keeps its place and its form when
its value is set anew; a new key goes to the end. Keys are the same if they are equal by `==`, which
need not mean that they are one value.

* `get?`, `set`, `erase` are the operations; `get?_set` and `get?_erase` say what each does to the
  view `get?`.
* `Distinct` dictionaries have each key once; `filter_filterMap` says what is read off one key. -/

namespace QuotaWarden.Dictionary

variable {κ : Type u} {α : Type v} {β : Type w} [BEq κ]

/-- The value of the first entry whose key is `k`. -/
def get? (k : κ) : List (κ × α) → Option α
  | [] => none
  | (k', v) :: r => if k' == k then some v else get? k r

/-- Gives `k` the value `v`: in its place if it has one, else at the end. -/
def set (k : κ) (v : α) : List (κ × α) → List (κ × α)
  | [] => [(k, v)]
  | (k', w) :: r => if k' == k then (k', v) :: r else (k', w) :: set k v r

def erase (k : κ) (d : List (κ × α)) : List (κ × α) := d.filter fun e => !(e.1 == k)

def has (k : κ) (d : List (κ × α)) : Bool := (get? k d).isSome

def keys (d : List (κ × α)) : List κ := d.map (·.1)

def values (d : List (κ × α)) : List α := d.map (·.2)

theorem get?_congr [PartialEquivBEq κ] {j k : κ} (h : (j == k) = true) (d : List (κ × α)) :
    get? j d = get? k d := by
  induction d with
  | nil => rfl
  | cons p r ih => rw [get?, get?, BEq.congr_right h, ih]

theorem get?_set_self [ReflBEq κ] (k : κ) (v : α) (d : List (κ × α)) :
    get? k (set k v d) = some v := by
  induction d with
  | nil => simp [set, get?]
  | cons p r ih => by_cases h : (p.1 == k) = true <;> simp [set, get?, h, ih]

theorem get?_set_of_ne [PartialEquivBEq κ] {j k : κ} (h : (j == k) = false) (v : α)
    (d : List (κ × α)) : get? j (set k v d) = get? j d := by
  have h' : (k == j) = false := by rw [BEq.comm, h]
  induction d with
  | nil => simp [set, get?, h']
  | cons p r ih =>
    by_cases hp : (p.1 == k) = true
    · have hj : (p.1 == j) = false := by rw [BEq.congr_left hp, h']
      simp [set, get?, hp, hj]
    · simp [set, get?, hp, ih]

theorem get?_set [EquivBEq κ] (j k : κ) (v : α) (d : List (κ × α)) :
    get? j (set k v d) = if j == k then some v else get? j d := by
  by_cases h : (j == k) = true
  · rw [get?_congr h, get?_set_self, if_pos h]
  · rw [get?_set_of_ne (by simpa using h), if_neg h]

theorem get?_erase [PartialEquivBEq κ] (j k : κ) (d : List (κ × α)) :
    get? j (erase k d) = if j == k then none else get? j d := by
  induction d with
  | nil => simp [erase, get?]
  | cons p r ih =>
    unfold erase at ih ⊢
    by_cases hk : (p.1 == k) = true
    · rw [List.filter_cons_of_neg (by simp [hk]), ih, get?, BEq.congr_left hk, BEq.comm]
      split <;> simp_all
    · rw [List.filter_cons_of_pos (by simp [hk]), get?, get?, ih]
      by_cases hj : (p.1 == j) = true
      · rw [if_pos hj, if_pos hj, if_neg]
        rwa [← BEq.congr_left hj]
      · rw [if_neg hj, if_neg hj]

/-! ### Entries -/

/-- No two entries have one key. -/
def Distinct (d : List (κ × α)) : Prop := d.Pairwise fun x y => (x.1 == y.1) = false

theorem mem_of_get? {k : κ} {v : α} {d : List (κ × α)} (h : get? k d = some v) :
    ∃ j, (j == k) = true ∧ (j, v) ∈ d := by
  induction d with
  | nil => simp [get?] at h
  | cons p r ih =>
    rw [get?] at h
    split at h
    · next hp =>
      obtain rfl : p.2 = v := by simpa using h
      exact ⟨p.1, hp, List.mem_cons_self⟩
    · obtain ⟨j, hj, hm⟩ := ih h
      exact ⟨j, hj, List.mem_cons_of_mem _ hm⟩

theorem get?_of_mem [PartialEquivBEq κ] [ReflBEq κ] {k : κ} {v : α} {d : List (κ × α)}
    (hd : Distinct d) (h : (k, v) ∈ d) : get? k d = some v := by
  induction d with
  | nil => simp at h
  | cons p r ih =>
    obtain ⟨hp, hr⟩ := List.pairwise_cons.1 hd
    rw [get?]
    rcases List.mem_cons.1 h with rfl | h
    · simp
    · rw [if_neg (by simp [hp _ h]), ih hr h]

theorem mem_set {k : κ} {v : α} {e : κ × α} {d : List (κ × α)} (h : e ∈ set k v d) :
    e ∈ d ∨ e = (k, v) ∨ ∃ j, (j == k) = true ∧ e = (j, v) := by
  induction d with
  | nil => exact .inr (.inl (by simpa [set] using h))
  | cons p r ih =>
    rw [set] at h
    split at h
    · next hp =>
      rcases List.mem_cons.1 h with rfl | h
      · exact .inr (.inr ⟨p.1, hp, rfl⟩)
      · exact .inl (List.mem_cons_of_mem _ h)
    · rcases List.mem_cons.1 h with rfl | h
      · exact .inl List.mem_cons_self
      · rcases ih h with h | h
        · exact .inl (List.mem_cons_of_mem _ h)
        · exact .inr h

theorem mem_of_mem_erase {k : κ} {e : κ × α} {d : List (κ × α)} (h : e ∈ erase k d) : e ∈ d :=
  (List.mem_filter.1 h).1

theorem distinct_erase {d : List (κ × α)} (h : Distinct d) (k : κ) : Distinct (erase k d) :=
  List.Pairwise.filter _ h

theorem distinct_set [EquivBEq κ] {d : List (κ × α)} (h : Distinct d) (k : κ) (v : α) :
    Distinct (set k v d) := by
  induction d with
  | nil => exact List.pairwise_singleton _ _
  | cons p r ih =>
    obtain ⟨hp, hr⟩ := List.pairwise_cons.1 h
    rw [set]
    split
    · exact List.pairwise_cons.2 ⟨hp, hr⟩
    · next hk =>
      refine List.pairwise_cons.2 ⟨?_, ih hr⟩
      intro e he
      rcases mem_set he with he | rfl | ⟨j, hj, rfl⟩
      · exact hp e he
      · simpa using hk
      · rw [BEq.congr_right hj]
        simpa using hk

theorem get?_tail_of_distinct [PartialEquivBEq κ] {e : κ × α} {r : List (κ × α)}
    (h : Distinct (e :: r)) : get? e.1 r = none := by
  cases hg : get? e.1 r with
  | none => rfl
  | some v =>
      obtain ⟨j, hj, hm⟩ := mem_of_get? hg
      have apart : (e.1 == j) = false := (List.pairwise_cons.mp h).1 _ hm
      rw [BEq.comm, apart] at hj
      exact absurd hj Bool.false_ne_true

/-- `get?` does not depend on the order of `Distinct` entries. -/
theorem get?_perm [PartialEquivBEq κ] [ReflBEq κ] {d d' : List (κ × α)} (hd : Distinct d)
    (h : d.Perm d') (k : κ) : get? k d = get? k d' := by
  have hd' : Distinct d' := (h.pairwise_iff fun e => by rwa [BEq.comm]).mp hd
  have held {e e' : List (κ × α)} (he' : Distinct e') (hsub : e ⊆ e') {v : α}
      (hv : get? k e = some v) : get? k e' = some v := by
    obtain ⟨j, hj, hmem⟩ := mem_of_get? hv
    rw [← get?_congr hj]
    exact get?_of_mem he' (hsub hmem)
  cases hk : get? k d with
  | some v => exact (held hd' h.subset hk).symm
  | none =>
      cases hk' : get? k d' with
      | none => rfl
      | some v => exact absurd (held hd h.symm.subset hk') (by simp [hk])

/-- What `filterMap` gives about `k` comes of the value of `k`. -/
theorem filter_filterMap [PartialEquivBEq κ] {d : List (κ × α)} (hd : Distinct d) {k : κ}
    {f : κ × α → Option β} {g : α → Option β} {p : β → Bool}
    (hp : ∀ e ∈ d, ∀ b, f e = some b → p b = (e.1 == k))
    (hg : ∀ e ∈ d, (e.1 == k) = true → f e = g e.2) :
    (d.filterMap f).filter p = ((get? k d).bind g).toList := by
  induction d with
  | nil => rfl
  | cons e r ih =>
      rw [List.forall_mem_cons] at hp hg
      have rest := ih (List.pairwise_cons.mp hd).2 hp.2 hg.2
      cases hk : e.1 == k with
      | false =>
          cases hf : f e with
          | none => simpa [get?, hf, hk] using rest
          | some b => simpa [get?, hf, hk, hp.1 b hf] using rest
      | true =>
          rw [← get?_congr hk, get?_tail_of_distinct hd] at rest
          cases hf : f e with
          | none => simpa [get?, ← hg.1 hk, hf, hk] using rest
          | some b => simpa [get?, ← hg.1 hk, hf, hk, hp.1 b hf] using rest

end QuotaWarden.Dictionary
