import QuotaWarden.Enforcement

/-!
# The published status of a policy

* `readPolicy` reads a policy; one that is gone is no failure.
* `publishStatus` writes the status of a policy that is still there, with the time of the write.
-/

namespace QuotaWarden

variable {σ τ : Type} [ClusterApi σ]

/-- A policy, if it is there. -/
def readPolicy (ns name : Json) : Act (Site σ τ) (Option Json) := do
  match ← Act.attempt (Site.call (ClusterApi.getPolicy ns name)) with
  | .ok v => return some v
  | .error (.refused r) => if r.isMissing then return none else Act.fail (.refused r)
  | .error f => Act.fail f

/-- A field from its name and its value, at its place among the fields. -/
def statusField (v : Json) (place : Nat) : Except Fault (String × Json) :=
  match v.iterate? with
  | some [name, value] => return ((← Key.ofJson name).fieldName, value)
  | some vs => .error (.notAPair place vs.length)
  | none => .error (.notIterable v.kindName)

/-- Fields that are given one by one; of two fields with one name the last one counts. -/
def collectFields (vs : List Json) : Except Fault (List (String × Json)) :=
  vs.zipIdx.foldlM (fun fields (v, place) => do
    let (name, value) ← statusField v place
    return setField name value fields) []

/-- The fields of a status: those of an object, or pairs of names and values that are gone through.
-/
def statusFields : Json → Except Fault (List (String × Json))
  | .obj fields => .ok fields
  | v =>
    match v.iterate? with
    | some vs => collectFields vs
    | none => .error (.notIterable v.kindName)

/-- A status with the field that tells when it was written. Here it only tells that it was. -/
def stamped (status : Json) : Except Fault Json := do
  let fields ← statusFields status
  return .obj [("status", .obj (setField "lastReconciled" (.bool true) fields))]

/-- Patches the status of a policy that `readPolicy` finds. -/
def writeStatus (ns name status : Json) : Act (Site σ τ) (Option Json) := do
  match ← readPolicy ns name with
  | none =>
    Site.say .info ("Policy " ++ ns.display ++ "/" ++ name.display ++
      " is gone, skipping status update")
    return none
  | some _ =>
    let body ← Act.lift (stamped status)
    some <$> Site.call (ClusterApi.patchStatus ns name body)

/-- Publishes a status: the policy after that, if it is still there. -/
def publishStatus (ns name status : Json) : Act (Site σ τ) (Option Json) := do
  match ← Act.attempt (writeStatus ns name status) with
  | .ok v => return v
  | .error (.refused r) => Act.fail (.statusNotWritten ns name.display r)
  | .error f => Act.fail f

end QuotaWarden
