import QuotaWarden.Json.Reader
import QuotaWarden.Json.Writer
import QuotaWarden.Metrics.Exposition
import QuotaWarden.Operator.Basic
import QuotaWarden.Webhook.Review

/-!
# The pages over HTTP

Two applications answer requests. The webhook answers admission reviews and takes requests to forget
what is known about a namespace; both applications tell whether they live and are ready, and show
the counters.

* `validate` answers a review. Whatever cannot be decided is allowed: pods that cannot be read, and
  pods of namespaces without a policy or whose pods cannot be listed.
* `respond` answers a request; a fault that is not provided for is answered with status 500.
-/

namespace QuotaWarden

variable {σ τ : Type} [ClusterApi σ]

structure HttpRequest where
  method : String
  path : String
  body : List UInt8

inductive HttpContent where
  | text (s : String)
  | json (v : Json)
  /-- The page of counters. -/
  | counters (page : String)
  /-- Nothing, of no type. -/
  | empty

structure HttpResponse where
  status : Nat
  content : HttpContent

inductive HttpApp where
  | webhook
  | health
deriving DecidableEq, Repr

/-- The pages, with those that the framework adds as `manual`. -/
inductive HttpPage where
  | validate
  | invalidate
  | alive
  | ready
  | counters
  /-- A page about the application itself. -/
  | manual
deriving DecidableEq, Repr

namespace HttpPage

/-- The pages of an application by path. -/
def ofApp (app : HttpApp) : List (String × HttpPage) :=
  [("/openapi.json", manual), ("/docs", manual), ("/docs/oauth2-redirect", manual),
    ("/redoc", manual)] ++
    (match app with
      | .webhook => [("/validate", validate), ("/invalidate", invalidate)]
      | .health => []) ++
    [("/healthz", alive), ("/readyz", ready), ("/metrics", counters)]

/-- The page of an application at a path. A line break at the end of the path does not matter. -/
def at? (app : HttpApp) (path : String) : Option HttpPage :=
  match Dictionary.get? path (ofApp app) with
  | some page => some page
  | none =>
    if path.endsWith "\n" then Dictionary.get? (String.ofList path.toList.dropLast) (ofApp app)
    else none

def method : HttpPage → String
  | validate | invalidate => "POST"
  | _ => "GET"

end HttpPage

def plain (status : Nat) (s : String) : HttpResponse := ⟨status, .text s⟩

/-- The response to a fault that is not provided for. -/
def serverError : HttpResponse := plain 500 "Internal Server Error"

/-- How deep the JSON of a request may nest, from how much further down a mistake in it is told, and
how long its integers may be. -/
def bodyLimits : ReadLimits := ⟨962, 3, some Number.digitLimit⟩

/-- How deep the JSON of a response may nest. -/
def sentDepth : Nat := 959

/-- A response that holds a value; a value without a JSON text or that nests too deep cannot be
sent. -/
def sendJson (status : Nat) (v : Json) : HttpResponse :=
  if v.hasText && v.nestsWithin sentDepth then ⟨status, .json v⟩ else serverError

/-- What is said about a request that finds no page. -/
def detail (status : Nat) (s : String) : HttpResponse := sendJson status (.obj [("detail", .str s)])

/-- The answer that lets a pod in. -/
def allowReview (review : List (String × Json)) (uid : Json) : HttpResponse :=
  sendJson 200 (reviewAnswer review uid (.bool true) (.str ""))

/-- The answer that refuses a pod. -/
def refuseReview (review : List (String × Json)) (uid : Json) (message : String) : HttpResponse :=
  sendJson 200 (reviewAnswer review uid (.bool false) (.str message))

/-- Decides on a pod that can be read. -/
def reviewPod (policies : WatchCache) (review : List (String × Json)) (uid ns : Json) (pod : Pod) :
    Act (Site σ τ) HttpResponse := do
  let decision ← decideAdmission policies ns pod
  if decision.allowed then return allowReview review uid
  else return refuseReview review uid ("Pod denied by QuotaPolicy: " ++ decision.message)

/-- The fields of the first value, or of the empty object if the value is not given. -/
def givenMapping (v : Json) : Except Fault (List (String × Json)) := mapping (v.orElse (.obj []))

/-- Answers a review whose request is given. -/
def reviewRequest (policies : WatchCache) (review : List (String × Json)) (request : Json) :
    Act (Site σ τ) HttpResponse := do
  let fields ← Act.lift (mapping request)
  let uid := (field? "uid" fields).getD (.str "")
  let ns := (field? "namespace" fields).getD (.str "")
  let kind ← Act.lift (givenMapping (Json.ofOption (field? "kind" fields)))
  let operation := Json.ofOption (field? "operation" fields)
  let name := Json.ofOption (field? "kind" kind)
  if !(name.same (.str "Pod") && operation.same (.str "CREATE")) then
    return allowReview review uid
  else
    match Pod.ofJson ((Json.ofOption (field? "object" fields)).orElse (.obj [])) with
    | .ok pod => reviewPod policies review uid ns pod
    | .error f =>
      if f.isUnusable then
        Site.say .warning ("Allowing undecodable pod in " ++ ns.display ++ ": " ++ f.message)
        return allowReview review uid
      else Act.fail f

/-- The request in a review, if it is given. -/
def requestOf : Json → Option (List (String × Json) × Json)
  | .obj review =>
    let request := Json.ofOption (field? "request" review)
    if request.truthy then some (review, request) else none
  | _ => none

/-- Answers a review. -/
def validate (policies : WatchCache) (body : List UInt8) : Act (Site σ τ) HttpResponse :=
  match Json.readBytes bodyLimits body with
  | .error .malformed => return plain 400 "could not decode admission review"
  | .error .tooDeep => return serverError
  | .ok v =>
    match requestOf v with
    | some (review, request) => reviewRequest policies review request
    | none => return plain 400 "no admission request"

/-- Answers a request to forget what is known about a namespace. The cache is current at all times,
so there is nothing to forget. -/
def invalidate (body : List UInt8) : HttpResponse :=
  match Json.readBytes bodyLimits body with
  | .error .malformed => plain 400 "bad request"
  | .error .tooDeep => serverError
  | .ok v =>
    let ns := match v with
      | .obj fields => Json.ofOption (field? "namespace" fields)
      | _ => .null
    if ns.truthy then sendJson 200 (.obj [("status", .str "invalidated")])
    else plain 400 "namespace required"

/-- The page of counters; a label without a UTF-8 form cannot be sent. -/
def countersPage (m : Metrics) : HttpResponse :=
  let page := m.page
  if Text.hasSurrogate page then serverError else ⟨200, .counters page⟩

def answerPage (page : HttpPage) (body : List UInt8) : Act (Operator σ τ) HttpResponse := do
  let o ← Act.state
  match page with
  | .validate => Operator.onSite (validate o.policies body)
  | .invalidate => return invalidate body
  | .alive => return plain 200 "ok"
  | .ready => return if o.ready then plain 200 "ready" else plain 503 "not ready"
  | .counters => return countersPage o.site.metrics
  | .manual => return plain 200 ""

/-- The path with a slash at its end, or without those at its end. -/
def otherPath (path : String) : String :=
  if path.endsWith "/" then String.ofList (Text.trimEnd (· = '/') path.toList) else path ++ "/"

/-- The answer where no page has the path: a hint at a page whose path differs by slashes at the
end. -/
def missingPage (app : HttpApp) (path : String) : HttpResponse :=
  if path ≠ "/" && (HttpPage.at? app (otherPath path)).isSome then ⟨307, .empty⟩
  else detail 404 "Not Found"

/-- The answer to a request: 404 without a page, 405 for another method, 500 for a fault. -/
def respond (app : HttpApp) (r : HttpRequest) (o : Operator σ τ) : HttpResponse × Operator σ τ :=
  match HttpPage.at? app r.path with
  | none => (missingPage app r.path, o)
  | some page =>
    if page.method ≠ r.method then (detail 405 "Method Not Allowed", o)
    else
      match answerPage page r.body o with
      | (.ok response, o) => (response, o)
      | (.error _, o) => (serverError, o)

end QuotaWarden
