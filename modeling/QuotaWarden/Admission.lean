import QuotaWarden.PolicyCache
import QuotaWarden.Projection

/-!
# Admission

A pod that asks to be admitted to a namespace is refused if it would take the namespace above a
limit. A namespace without a policy, and one whose pods cannot be listed, lets it in.

* `decideAdmission` decides and counts the decision.
-/

namespace QuotaWarden

variable {σ τ : Type} [ClusterApi σ]

/-- Decides on a pod in a namespace that a policy governs. -/
def decideUnder (policy : Policy) (ns : Json) (pod : Pod) : Act (Site σ τ) Decision := do
  let label := ns.display
  match ← Act.attempt (Site.call (ClusterApi.listPods ns)) with
  | .error f =>
    Site.say .warning ("Allowing pod in " ++ label ++ ": cannot list pods (" ++ f.callText ++ ")")
    Site.tally (.admitted label "allowed_on_error" "")
    return .allow
  | .ok pods =>
    let projected ← Act.lift (do (← Usage.ofPods pods).withPod pod)
    let decision ← Act.lift (projected.decide policy)
    if decision.allowed then
      Site.tally (.admitted label "allowed" "")
    else
      Site.say .info ("Denied pod in " ++ label ++ " by policy " ++ policy.name.display ++ ": " ++
        decision.message)
      Site.tally (.admitted label "denied" decision.reason.name)
    return decision

/-- Decides on a pod: `allow` where no policy governs `ns`, else `decideUnder`. -/
def decideAdmission (policies : WatchCache) (ns : Json) (pod : Pod) : Act (Site σ τ) Decision := do
  let policy ← governingPolicy? policies ns
  Site.tally (.lookedUp policy.isSome)
  match policy with
  | none =>
    Site.tally (.admitted ns.display "allowed_no_policy" "")
    return .allow
  | some policy => decideUnder policy ns pod

end QuotaWarden
