import QuotaWarden.Usage

/-!
# The choice of a pod to evict

Too many pods: the oldest goes. Too many cores or bytes: the newest goes. Pods of one age are
ordered by name, and of pods alike in both the first is taken.

* `selectVictim` makes the choice; `firstLeast?` and `firstGreatest?` are the extremes of a list by
  a key. -/

namespace QuotaWarden

/-- An age and a name; a less age is an earlier time. -/
abbrev AgeKey := Int × String

def AgeKey.before (x y : AgeKey) : Bool :=
  decide (x.1 < y.1) || (decide (x.1 = y.1) && decide (x.2 < y.2))

def withAgeKeys (pods : List Pod) : Except Fault (List (AgeKey × Pod)) :=
  pods.mapM fun p => do return (← p.ageKey?, p)

/-- The first of the least entries. -/
def firstLeast? : List (AgeKey × α) → Option α
  | [] => none
  | x :: r => some (r.foldl (fun best y => if y.1.before best.1 then y else best) x).2

/-- The first of the greatest entries. -/
def firstGreatest? : List (AgeKey × α) → Option α
  | [] => none
  | x :: r => some (r.foldl (fun best y => if best.1.before y.1 then y else best) x).2

/-- The pod to evict for a reason: none without a reason or a live pod. -/
def selectVictim (pods : List Pod) (reason : Reason) : Except Fault (Option Pod) :=
  match reason with
  | .none => .ok none
  | .pods => (withAgeKeys (livePods pods)).map firstLeast?
  | .cpu | .memory => (withAgeKeys (livePods pods)).map firstGreatest?

end QuotaWarden
