import QuotaWarden.Quantity

/-!
# Pods

A pod as far as quotas look at it: where it lives, when it was made, what its containers request,
and its phase.

* `Pod.isTerminal` says that a pod has ended and counts no more; `livePods` are the others.
* `Pod.requests` sums what the containers request, in their order.
* `Pod.ageKey?` orders pods by age and then by name.
-/

namespace QuotaWarden

/-- A container: a name, and requests by resource unless it states none. -/
structure Container where
  name : String
  requests : Option (List (String × String))
deriving DecidableEq, Repr, Inhabited

/-- What identifies a pod. The time is in seconds since 1970. -/
structure PodMetadata where
  name : Option String
  ns : Option String
  resourceVersion : Option String
  created : Option Int
deriving DecidableEq, Repr, Inhabited

/-- What a cluster tells about a pod. -/
structure PodStatus where
  phase : Option String
deriving DecidableEq, Repr, Inhabited

structure Pod where
  metadata : Option PodMetadata
  /-- The containers, if the pod says what it is to run. -/
  spec : Option (List Container)
  status : Option PodStatus
deriving DecidableEq, Repr, Inhabited

def Pod.containers (p : Pod) : List Container := p.spec.getD []

def Pod.phase (p : Pod) : Option String := p.status.bind (·.phase)

/-- An amount of cores and of bytes. -/
structure Amounts where
  cpu : Decimal
  memory : Decimal
deriving DecidableEq, Repr

def Amounts.zero : Amounts := ⟨0, 0⟩

/-- Adds amounts: cores first. -/
def Amounts.add (x y : Amounts) : Except Signal Amounts := do
  let cpu ← Decimal.add .working x.cpu y.cpu
  let memory ← Decimal.add .working x.memory y.memory
  return ⟨cpu, memory⟩

/-- The phases of pods that have ended. -/
def terminalPhases : List String := ["Succeeded", "Failed"]

/-- Adds the request for a resource, if there is one, to a sum. -/
def addRequest (requests : List (String × String)) (resource : String) (sum : Decimal) :
    Except Fault Decimal :=
  match field? resource requests with
  | none => .ok sum
  | some text => do
    let x ← Quantity.read text
    liftSignal (Decimal.add .working sum x)

/-- Adds the requests of a container to a sum: cores first. -/
def Container.addTo (sum : Amounts) (c : Container) : Except Fault Amounts := do
  let requests := c.requests.getD []
  let cpu ← addRequest requests "cpu" sum.cpu
  let memory ← addRequest requests "memory" sum.memory
  return ⟨cpu, memory⟩

namespace Pod

/-- `p.phase` is one of `terminalPhases`. -/
def isTerminal (p : Pod) : Bool :=
  match p.phase with
  | some phase => terminalPhases.contains phase
  | none => false

/-- What the containers of a pod request together. -/
def requests (p : Pod) : Except Fault Amounts := p.containers.foldlM Container.addTo .zero

/-- The time that stands for a missing one: the first second of the year 1. -/
def earliest : Int := -62135596800

/-- The age and the name by which pods are ordered for eviction; a pod without metadata has no name.
-/
def ageKey? (p : Pod) : Except Fault (Int × String) :=
  match p.metadata with
  | some m => .ok (m.created.getD earliest, m.name.getD "")
  | none => .error (.noField "NoneType" "name")

end Pod

/-- The pods that are not `Pod.isTerminal`. -/
def livePods (pods : List Pod) : List Pod := pods.filter fun p => !p.isTerminal

@[simp] theorem mem_livePods {p : Pod} {pods : List Pod} :
    p ∈ livePods pods ↔ p ∈ pods ∧ p.isTerminal = false := by
  simp [livePods]

theorem livePods_append (xs ys : List Pod) : livePods (xs ++ ys) = livePods xs ++ livePods ys :=
  List.filter_append ..

end QuotaWarden
