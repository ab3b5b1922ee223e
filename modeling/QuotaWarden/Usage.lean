import QuotaWarden.Pod
import QuotaWarden.Policy

/-!
# Usage and verdicts

The usage of a namespace is the number of its live pods and what they request together.

* `Usage.ofPods` adds the live pods up in their order, `Usage.withPod` adds one more pod.
* `Usage.evaluate` compares a usage with a policy; the `Verdict` names the first limit that is
  exceeded, in the order pods, cores, bytes.
* `Verdict.status` is what is published about a verdict.
-/

namespace QuotaWarden

open Number

/-- The first limit that is exceeded, or none. -/
inductive Reason where
  | none
  | pods
  | cpu
  | memory
deriving DecidableEq, Repr, Inhabited

namespace Reason

def name : Reason → String
  | none => "none"
  | pods => "pods"
  | cpu => "cpu"
  | memory => "memory"

def all : List Reason := [none, pods, cpu, memory]

/-- The reason that a value names. -/
def ofJson (v : Json) : Except Fault Reason :=
  match all.find? fun r => v.same (.str r.name) with
  | some r => .ok r
  | Option.none => .error (.unknownReason v)

theorem ofJson_name (r : Reason) : ofJson (.str r.name) = .ok r := by
  cases r <;> simp [ofJson, all, name]

end Reason

/-- A number of pods, and what they request. -/
structure Usage extends Amounts where
  pods : Int
deriving DecidableEq, Repr

namespace Usage

def zero : Usage := ⟨.zero, 0⟩

instance : Inhabited Usage := ⟨zero⟩

/-- The usage with one more pod, live or not. -/
def withPod (u : Usage) (p : Pod) : Except Fault Usage := do
  let requests ← p.requests
  let total ← liftSignal (u.toAmounts.add requests)
  return ⟨total, u.pods + 1⟩

/-- Counts a pod and adds what it requests, unless it has ended. -/
def countPod (u : Usage) (p : Pod) : Except Fault Usage := do
  if p.isTerminal then return u
  let requests ← p.requests
  let cpu ← liftSignal (Decimal.add .working u.cpu requests.cpu)
  let memory ← liftSignal (Decimal.add .working u.memory requests.memory)
  return ⟨⟨cpu, memory⟩, u.pods + 1⟩

/-- The usage of the live pods of a list, added in their order. -/
def ofPods (pods : List Pod) : Except Fault Usage := pods.foldlM countPod zero

theorem countPod_of_terminal {p : Pod} (h : p.isTerminal = true) (u : Usage) :
    u.countPod p = .ok u := by
  simp [countPod, h, pure, Except.pure]

/-- `countPod` counts a live pod as `withPod` does. -/
theorem countPod_of_live {p : Pod} (h : p.isTerminal = false) (u : Usage) :
    u.countPod p = u.withPod p := by
  unfold countPod withPod Amounts.add
  rw [if_neg (by simp [h])]
  cases p.requests with
  | error f => rfl
  | ok requests =>
      cases hc : Decimal.add .working u.cpu requests.cpu with
      | error e => simp [hc, liftSignal, bind, Except.bind]
      | ok cpu =>
          cases hm : Decimal.add .working u.memory requests.memory <;>
            simp [hc, hm, liftSignal, bind, Except.bind, pure, Except.pure]

/-- `ofPods` is the fold of `withPod` over `livePods`. -/
theorem ofPods_eq (pods : List Pod) : ofPods pods = (livePods pods).foldlM withPod zero := by
  unfold ofPods
  generalize zero = u
  induction pods generalizing u with
  | nil => rfl
  | cons p r ih =>
      rw [List.foldlM_cons]
      cases hp : p.isTerminal with
      | true =>
          rw [countPod_of_terminal hp]
          simpa [livePods, hp, bind, Except.bind] using ih u
      | false =>
          have live : livePods (p :: r) = p :: livePods r := by simp [livePods, hp]
          rw [countPod_of_live hp, live, List.foldlM_cons]
          exact congrArg _ (funext ih)

theorem ofPods_append (xs ys : List Pod) :
    ofPods (xs ++ ys) = (ofPods xs).bind fun u => (livePods ys).foldlM withPod u := by
  simp [ofPods_eq, livePods_append, List.foldlM_append, bind]

theorem ofPods_livePods (pods : List Pod) : ofPods (livePods pods) = ofPods pods := by
  simp [ofPods_eq, livePods]

end Usage

/-- Whether an amount exceeds a limit that is set. -/
def exceeds (amount limit : Decimal) : Except Fault Bool := do
  if ← liftSignal (Decimal.lt 0 limit) then liftSignal (Decimal.lt limit amount) else return false

/-- Whether a number of pods exceeds a limit that is set. -/
def countExceeds (count limit : Int) : Bool := decide (0 < limit) && decide (limit < count)

def writeCount (n : Int) : Except Fault String :=
  match writeInteger? n with
  | some s => .ok s
  | none => .error .integerTooLong

/-- The outcome of comparing a usage with a policy. -/
structure Verdict where
  usage : Usage
  reason : Reason
  message : String
deriving DecidableEq, Repr, Inhabited

namespace Verdict

/-- The verdict on a usage that respects every limit. -/
def compliant (u : Usage) : Verdict := ⟨u, .none, ""⟩

def violated (v : Verdict) : Bool := v.reason ≠ .none

theorem violated_iff {v : Verdict} : v.violated = true ↔ v.reason ≠ .none := by simp [violated]

def withMessage (v : Verdict) (message : String) : Verdict := { v with message }

end Verdict

/-- Compares a usage with the limits of a policy. -/
def Usage.evaluate (u : Usage) (p : Policy) : Except Fault Verdict := do
  if countExceeds u.pods p.maxPods then
    return ⟨u, .pods, "pods:" ++ (← writeCount u.pods) ++ ">max:" ++ (← writeCount p.maxPods)⟩
  if ← exceeds u.cpu p.maxCpu then
    return ⟨u, .cpu, "cpu:" ++ (← Quantity.writeCpu u.cpu) ++ ">max:" ++
      (← Quantity.writeCpu p.maxCpu)⟩
  if ← exceeds u.memory p.maxMemory then
    return ⟨u, .memory, "memory:" ++ (← Quantity.writeMemory u.memory) ++ ">max:" ++
      (← Quantity.writeMemory p.maxMemory)⟩
  return .compliant u

/-- The fields that `publishStatus` writes for a verdict. -/
structure Status where
  currentPods : Int
  cpuUsage : String
  memoryUsage : String
  violation : Bool
  message : String
deriving DecidableEq, Repr

/-- The status that tells of a verdict. -/
def Verdict.status (v : Verdict) : Except Fault Status := do
  let cpuUsage ← Quantity.writeCpu v.usage.cpu
  let memoryUsage ← Quantity.writeMemory v.usage.memory
  return ⟨v.usage.pods, cpuUsage, memoryUsage, v.violated, v.message⟩

def Status.fields (s : Status) : List (String × Json) :=
  [("currentPods", .int s.currentPods), ("cpuUsage", .str s.cpuUsage),
   ("memoryUsage", .str s.memoryUsage), ("violation", .bool s.violation),
   ("message", .str s.message)]

end QuotaWarden
