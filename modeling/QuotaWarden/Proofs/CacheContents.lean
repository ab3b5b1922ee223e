import QuotaWarden.Proofs.StreamContents
import QuotaWarden.WatchCache.Script

/-! # What operations leave in a cache

Objects of any shape are kept under the keys that their metadata give: a list response and an event
leave an index `Index.Housed` (`WatchCache.listed_housed`, `WatchCache.apply_housed`), and an event
changes it only under the key of its object.

A host is `Quiet` if neither its log nor its handlers touch the cache. Then the cache after an
operation is what the operation made of it, whatever was told to whom (`CacheHost.Quiet.relist`,
`CacheHost.Quiet.apply`, `CacheHost.Quiet.resync`). -/

namespace QuotaWarden

/-! ### Indexes of objects under their keys -/

namespace Index

/-- An index that `Holds` objects under their keys is `Housed`. -/
theorem Holds.housed {objects : List (ObjectKey × ApiObject)} {i : Index} (h : i.Holds objects)
    (hp : ∀ k o, (k, o) ∈ objects → o.IsUnder k) : i.Housed :=
  ⟨h.coherent, h.unrepeated, by rwa [h.objects]⟩

theorem Housed.holds {i : Index} (h : i.Housed) : i.Holds i.objects :=
  ⟨rfl, h.coherent, h.unrepeated⟩

theorem empty_housed : empty.Housed := Holds.empty.housed (by simp)

end Index

theorem isUnder_of_mem_set {objects : List (ObjectKey × ApiObject)}
    (hp : ∀ k o, (k, o) ∈ objects → o.IsUnder k) {j : ObjectKey} {x : ApiObject}
    (hx : x.IsUnder j) :
    ∀ k o, (k, o) ∈ Dictionary.set j x objects → o.IsUnder k := by
  intro k o hm
  rcases Dictionary.mem_set hm with hm | hm | ⟨i, hi, hm⟩
  · exact hp k o hm
  · obtain ⟨rfl, rfl⟩ := Prod.mk.inj hm
    exact hx
  · obtain ⟨rfl, rfl⟩ := Prod.mk.inj hm
    exact hx.congr (BEq.symm hi)

namespace WatchCache

theorem foldl_set_isUnder {es : List (ObjectKey × ApiObject)}
    (he : ∀ k o, (k, o) ∈ es → o.IsUnder k) {objects : List (ObjectKey × ApiObject)}
    (hp : ∀ k o, (k, o) ∈ objects → o.IsUnder k) :
    ∀ k o, (k, o) ∈ es.foldl (fun d e => Dictionary.set e.1 e.2 d) objects → o.IsUnder k := by
  induction es generalizing objects with
  | nil => exact hp
  | cons e r ih =>
      exact ih (fun k o hm => he k o (List.mem_cons_of_mem _ hm))
        (isUnder_of_mem_set hp (he e.1 e.2 List.mem_cons_self))

theorem listed_housed {response : Except Fault ApiObject} {es : List (ObjectKey × ApiObject)}
    (h : listed response = .ok es) : (Index.ofList es).Housed := by
  cases response with
  | error f => cases h
  | ok list =>
      refine (Index.Holds.ofList [] es).housed (foldl_set_isUnder ?_ (by simp))
      intro k o hm
      have he : entries list = .ok es := h
      obtain ⟨_, m, _, _, hmeta, hkey⟩ := mem_entries he hm
      exact ApiObject.IsUnder.of_meta hmeta hkey

theorem apply_housed {c : WatchCache} (h : c.index.Housed) (kind : ChangeKind) (x : ApiObject) :
    (∃ f, c.apply kind x = .error f) ∨
      ∃ i, c.apply kind x = .ok ({ c with index := i }, ⟨kind, x⟩) ∧ i.Housed ∧
        ∀ k, ¬ x.IsUnder k → i.get? k = c.index.get? k := by
  rcases takesIn c ⟨kind, x⟩ with ⟨_, i, e, _, holds⟩ | ⟨_, failed⟩
  · refine Or.inr ⟨i, e, ?_⟩
    have held := holds _ h.holds
    unfold Change.onto at held
    cases hk : x.key? with
    | none =>
        rw [hk] at held
        have same : i.objects = c.index.objects := held.objects
        exact ⟨held.housed h.placed, fun k _ => congrArg (Dictionary.get? k) same⟩
    | some j =>
        have hx : x.IsUnder j := ⟨j, hk, BEq.refl j⟩
        have apart : ∀ k, ¬ x.IsUnder k → (k == j) = false := fun k hn =>
          Bool.eq_false_iff.mpr fun hkj => hn (hx.congr (BEq.symm hkj))
        simp only [hk] at held
        by_cases hd : kind = .deleted
        · rw [if_pos hd] at held
          refine ⟨held.housed fun k o hm => h.placed k o (Dictionary.mem_of_mem_erase hm), ?_⟩
          intro k hn
          rw [Index.get?, held.objects, Dictionary.get?_erase, if_neg (by simp [apart k hn])]
          rfl
        · rw [if_neg hd] at held
          refine ⟨held.housed (isUnder_of_mem_set h.placed hx), fun k hn => ?_⟩
          rw [Index.get?, held.objects, Dictionary.get?_set_of_ne (apart k hn)]
          rfl
  · exact Or.inl failed

end WatchCache

/-! ### Quiet hosts -/

namespace CacheHost

variable {S : Type} {h : CacheHost S}

/-- Neither the log nor the handlers touch the cache. -/
structure Quiet (h : CacheHost S) : Prop where
  setCache : ∀ c s, h.cache (h.setCache c s) = c
  log : ∀ l s, h.cache (h.log l s) = h.cache s
  handlers : ∀ s, ∀ handler ∈ h.handlers s, ∀ c s', h.cache (handler c s').2 = h.cache s'

namespace Quiet

theorem deliverAll (hq : h.Quiet) (cs : List Change) (s : S) :
    h.cache (h.deliverAll cs s) = h.cache s :=
  deliverAll_rel (R := fun s s' => h.cache s' = h.cache s) (fun _ => rfl)
    (fun first second => second.trans first) hq.log hq.handlers cs s

theorem markSynced (hq : h.Quiet) (n : Nat) (s : S) :
    h.cache (h.markSynced n s) = { h.cache s with synced := true } := by
  unfold CacheHost.markSynced
  split
  · next hs => rw [← hs]
  · exact (hq.log _ _).trans (hq.setCache _ _)

/-- After a list response that can be read the cache holds `Index.ofList es` and is synced. -/
theorem relist (hq : h.Quiet) {response : Except Fault ApiObject}
    {es : List (ObjectKey × ApiObject)} (hr : WatchCache.listed response = .ok es) (s : S) :
    h.cache (h.relist response s).2 =
      { h.cache s with index := Index.ofList es, synced := true } := by
  rw [relist_listed hr, hq.markSynced, hq.deliverAll, hq.setCache]

/-- After an event that can be applied the cache is the one that `WatchCache.apply` gives. -/
theorem apply (hq : h.Quiet) {kind : ChangeKind} {x : ApiObject} {s : S} {c : WatchCache}
    {d : Change} (ha : (h.cache s).apply kind x = .ok (c, d)) :
    h.cache (h.apply kind x s).2 = c := by
  rw [apply_applied ha]
  exact (hq.deliverAll [d] _).trans (hq.setCache c s)

theorem resync (hq : h.Quiet) (s : S) : h.cache (h.resync s) = h.cache s := hq.deliverAll _ s

end Quiet

theorem apply_failed {kind : ChangeKind} {x : ApiObject} {s : S} {f : Fault}
    (ha : (h.cache s).apply kind x = .error f) : h.apply kind x s = (.error f, s) := by
  unfold CacheHost.apply
  rw [ha]

end CacheHost

theorem scripted_quiet {τ : Type} [TimeScale τ] (settings : WatchSettings τ) :
    (scripted settings).Quiet := by
  refine ⟨fun _ _ => rfl, fun _ _ => rfl, ?_⟩
  intro s handler hh c s'
  obtain ⟨x, _, rfl⟩ := List.mem_map.mp hh
  rfl

end QuotaWarden
