import QuotaWarden.Pod

/-!
# Reading an untyped pod

A review holds a pod as an untyped object. Only what quotas look at is read: the name, the
namespace, the phase, and the name and the requests of each container. Missing, null and other empty
parts count as empty objects.

* `Pod.ofJson` reads a pod; it also refuses a pod whose requests cannot be summed.
-/

namespace QuotaWarden

/-- The fields of a part of an object; a part that is not given has none. -/
def part (name : String) (fields : List (String × Json)) : Except Fault (List (String × Json)) :=
  match (Json.ofOption (field? name fields)).orElse (.obj []) with
  | .obj inner => .ok inner
  | _ => .error (.notAMapping name)

/-- A text where one is required. -/
def requiredText : Json → Except Fault String
  | .str s => .ok s
  | _ => .error .invalidField

/-- A text or null. -/
def optionalText : Json → Except Fault (Option String)
  | .null => .ok none
  | .str s => .ok (some s)
  | _ => .error .invalidField

/-- The items of a value; one that is not given has none. -/
def iterate (v : Json) : Except Fault (List Json) :=
  match (v.orElse (.arr [])).iterate? with
  | some items => .ok items
  | none => .error (.notIterable v.kindName)

/-- Requests whose values are all texts. -/
def readRequests (fields : List (String × Json)) : Except Fault (List (String × String)) :=
  fields.mapM fun (resource, v) => do return (resource, ← requiredText v)

def Container.ofJson (v : Json) : Except Fault Container :=
  match v with
  | .obj fields => do
    let resources ← part "resources" fields
    let requests ←
      match (Json.ofOption (field? "requests" resources)).orElse .null with
      | .null => pure none
      | .obj requested => some <$> readRequests requested
      | _ => .error (.notAMapping "container requests")
    let name ← requiredText ((Json.ofOption (field? "name" fields)).orElse (.str ""))
    return ⟨name, requests⟩
  | _ => .error (.notAMapping "container")

/-- The pod that `v` describes; it fails if the requests cannot be summed up. -/
def Pod.ofJson (v : Json) : Except Fault Pod :=
  match v with
  | .obj fields => do
    let metadata ← part "metadata" fields
    let spec ← part "spec" fields
    let status ← part "status" fields
    let containers ← (← iterate (Json.ofOption (field? "containers" spec))).mapM Container.ofJson
    let name ← optionalText ((Json.ofOption (field? "name" metadata)).orElse
      (Json.ofOption (field? "generateName" metadata)))
    let ns ← optionalText (Json.ofOption (field? "namespace" metadata))
    let phase ← optionalText (Json.ofOption (field? "phase" status))
    let pod : Pod := ⟨some ⟨name, ns, none, none⟩, some containers, some ⟨phase⟩⟩
    let _ ← pod.requests
    return pod
  | v => .error (.podNotAMapping v.kindName)

end QuotaWarden
