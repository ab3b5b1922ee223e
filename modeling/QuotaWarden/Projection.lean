import QuotaWarden.Usage

/-!
# The decision on a pod that asks to be admitted

The pod is counted as if it were there already, so that a namespace at its limit refuses the next
pod instead of evicting it later.

* `Usage.decide` makes the decision on such a usage.
-/

namespace QuotaWarden

/-- Whether a pod may come in; if not, why. -/
structure Decision where
  allowed : Bool
  message : String
  reason : Reason
deriving DecidableEq, Repr, Inhabited

namespace Decision

def allow : Decision := ⟨true, "", .none⟩

/-- The pod may not come in: a number above a limit. -/
def deny (reason : Reason) (what amount limit : String) : Decision :=
  ⟨false, what ++ " exceeded: " ++ amount ++ " > " ++ limit, reason⟩

end Decision

/-- Decides on a usage that counts the candidate. -/
def Usage.decide (u : Usage) (p : Policy) : Except Fault Decision := do
  if countExceeds u.pods p.maxPods then
    return .deny .pods "maxPods" (← writeCount u.pods) (← writeCount p.maxPods)
  else if ← exceeds u.cpu p.maxCpu then
    return .deny .cpu "cpu" (← Quantity.writeCpu u.cpu) (← Quantity.writeCpu p.maxCpu)
  else if ← exceeds u.memory p.maxMemory then
    return .deny .memory "memory" (← Quantity.writeMemory u.memory)
      (← Quantity.writeMemory p.maxMemory)
  else return .allow

end QuotaWarden
