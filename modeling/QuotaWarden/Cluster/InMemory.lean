import QuotaWarden.ClusterApi
import QuotaWarden.Pod.Reader

/-!
# A cluster in memory

A cluster that is kept in memory and can be told which of its calls fail.

* Pods and policies are found by namespace and name and listed in the order in which they came;
  putting one whose key is there replaces it in its place.
* A scripted outcome decides one call: it goes on or fails. An outcome that lasts decides every call
  from then on.
* Deletes, events and patches are kept for inspection.
-/

namespace QuotaWarden

inductive ApiCall where
  | listPods
  | listAllPods
  | listNamespaces
  | listPolicies
  | deletePod
  | createEvent
  | getPolicy
  | patchStatus
deriving DecidableEq, Repr

/-- What is to come of a call. -/
structure ScriptedOutcome where
  fault : Option Fault
  lasting : Bool

structure InMemory where
  pods : List (ObjectKey × Pod)
  policies : List (ObjectKey × Json)
  /-- The names of the namespaces, as they were given. -/
  namespaces : List Json
  script : List (ApiCall × List ScriptedOutcome)
  /-- Whether deletes succeed and remove nothing. -/
  ignoresDeletes : Bool
  /-- The namespace and the name of each pod to be deleted, of refused calls too, with the grace
  period. -/
  deletes : List (Option String × Option String × Int)
  /-- The events that were taken. -/
  events : List ClusterEvent
  /-- The namespace, the name and the body of each patch. -/
  patches : List (Json × Json × Json)
deriving Inhabited

namespace InMemory

def empty : InMemory := ⟨[], [], [], [], false, [], [], []⟩

def putPod (k : ObjectKey) (p : Pod) (c : InMemory) : InMemory :=
  { c with pods := Dictionary.set k p c.pods }

def erasePod (k : ObjectKey) (c : InMemory) : InMemory :=
  { c with pods := Dictionary.erase k c.pods }

/-- Takes out a pod that must be there. -/
def removePod (k : ObjectKey) : Act InMemory Unit := fun c =>
  if Dictionary.has k c.pods then (.ok (), c.erasePod k) else (.error .missingObject, c)

/-- Sets the phase of a pod that must be there and have a status. -/
def setPhase (k : ObjectKey) (phase : Json) : Act InMemory Unit := do
  match Dictionary.get? k (← Act.state).pods with
  | none => Act.fail .missingObject
  | some p =>
    if p.status.isNone then Act.fail (.noField "NoneType" "phase")
    else
      let phase ← Act.lift (optionalText phase)
      Act.change fun c => c.putPod k { p with status := some ⟨phase⟩ }

/-- The key that a namespace and a name give. -/
def keyOf (ns name : Json) : Except Fault ObjectKey := do
  return ⟨← Key.ofJson ns, ← Key.ofJson name⟩

def putPolicy (v : Json) : Act InMemory Unit := fun c =>
  let fields := match v with
    | .obj fields => fields
    | _ => []
  let metadata := match Json.ofOption (field? "metadata" fields) with
    | .obj inner => inner
    | _ => []
  match keyOf (Json.ofOption (field? "namespace" metadata))
      (Json.ofOption (field? "name" metadata)) with
  | .ok k => (.ok (), { c with policies := Dictionary.set k v c.policies })
  | .error f => (.error f, c)

/-- Takes out a policy that must be there. -/
def removePolicy (ns name : Json) : Act InMemory Unit := do
  let k ← Act.lift (keyOf ns name)
  if Dictionary.has k (← Act.state).policies then
    Act.change fun c => { c with policies := Dictionary.erase k c.policies }
  else Act.fail .missingObject

/-- Decides the outcomes of the next calls. -/
def setScript (call : ApiCall) (outcomes : List ScriptedOutcome) (c : InMemory) : InMemory :=
  { c with script := Dictionary.set call outcomes c.script }

/-- The status and the reason of a refusal because the object is not there. -/
def notFound : Refusal := ⟨.int missingStatus, .str "Not Found"⟩

def listVersion : String := "1"

/-- The next outcome that `script` has for `call`; no fault if there is none. -/
def begin (call : ApiCall) : Act InMemory Unit := fun c =>
  match Dictionary.get? call c.script with
  | some (o :: r) =>
    (match o.fault with
      | some f => .error f
      | none => .ok (), if o.lasting then c else c.setScript call r)
  | _ => (.ok (), c)

def podsIn (ns : Json) (c : InMemory) : List Pod :=
  (c.pods.filter fun e => e.1.ns.toJson.same ns).map (·.2)

def listPods (ns : Json) : Act InMemory (List Pod) := do
  begin .listPods
  return (← Act.state).podsIn ns

def listAllPods : Act InMemory ApiObject := do
  begin .listAllPods
  return .list ((Dictionary.values (← Act.state).pods).map .pod) (some listVersion)

/-- Lists the namespaces; a name that is neither a text nor missing breaks the list off. -/
def listNamespaces : Act InMemory NamespaceList := do
  begin .listNamespaces
  let names ← Act.lift ((← Act.state).namespaces.mapM optionalText)
  return ⟨names, listVersion⟩

def listPolicies : Act InMemory ApiObject := do
  begin .listPolicies
  let policies := Dictionary.values (← Act.state).policies
  return .untypedList [("items", .arr policies),
    ("metadata", .obj [("resourceVersion", .str listVersion)])] (policies.map .untyped)

/-- Deletes a pod: `notFound` if there is none, and no effect with `ignoresDeletes`. -/
def deletePod (ns name : Option String) (grace : Int) : Act InMemory Unit := do
  Act.change fun c => { c with deletes := c.deletes ++ [(ns, name, grace)] }
  begin .deletePod
  let c ← Act.state
  let k : ObjectKey := ⟨.ofText ns, .ofText name⟩
  if !Dictionary.has k c.pods then Act.fail (.refused notFound)
  else if c.ignoresDeletes then return ()
  else Act.change (erasePod k)

def getPolicy (ns name : Json) : Act InMemory Json := do
  begin .getPolicy
  match Dictionary.get? (← Act.lift (keyOf ns name)) (← Act.state).policies with
  | some v => return v
  | none => Act.fail (.refused notFound)

/-- A policy with another status. -/
def withStatus (body v : Json) : Json :=
  match body, v with
  | .obj patch, .obj fields =>
    .obj (setField "status" (Json.ofOption (field? "status" patch)) fields)
  | _, v => v

def patchStatus (ns name body : Json) : Act InMemory Json := do
  begin .patchStatus
  let k ← Act.lift (keyOf ns name)
  match Dictionary.get? k (← Act.state).policies with
  | none => Act.fail (.refused notFound)
  | some v =>
    let v := withStatus body v
    Act.change fun c =>
      { c with
        policies := Dictionary.set k v c.policies
        patches := c.patches ++ [(ns, name, body)] }
    return v

def createEvent (e : ClusterEvent) : Act InMemory ClusterEvent := do
  begin .createEvent
  Act.change fun c => { c with events := c.events ++ [e] }
  return e

instance : ClusterApi InMemory where
  listPods := listPods
  listAllPods := listAllPods
  listNamespaces := listNamespaces
  listPolicies := listPolicies
  deletePod := deletePod
  getPolicy := getPolicy
  patchStatus := patchStatus
  createEvent := createEvent

end InMemory

end QuotaWarden
