import QuotaWarden.Policy

/-!
# The answer to a review

An admission review is answered with the identifier that it came with, and with the reason if the
pod may not come in.

* `reviewAnswer` is the answer as an untyped object.
-/

namespace QuotaWarden

/-- The version of the review API where a review does not name one. -/
def reviewVersion : String := "admission.k8s.io/v1"

def refusalStatus (message : Json) : Json :=
  .obj [("code", .int 403), ("message", message)]

/-- The answer to a review with the given fields. What counts as given allows the pod. -/
def reviewAnswer (review : List (String × Json)) (uid allowed message : Json) : Json :=
  let verdict := [("uid", uid), ("allowed", allowed)]
  let response := if allowed.truthy then verdict else verdict ++ [("status", refusalStatus message)]
  .obj [("apiVersion", (Json.ofOption (field? "apiVersion" review)).orElse (.str reviewVersion)),
    ("kind", .str "AdmissionReview"), ("response", .obj response)]

end QuotaWarden
