import QuotaWarden.Eviction
import QuotaWarden.Settings
import QuotaWarden.Site

/-!
# Enforcing a policy

Pods are evicted until the usage of a namespace respects the policy, or a cap on deletes is reached.
Usage is computed from a fresh listing before every delete, and once more after the last.

* `evaluateNamespace` lists the pods of a namespace and compares their usage with a policy.
* `enforce` evicts. It fails if pods cannot be listed, and if the cap is reached with a violation
  left and the last delete refused. -/

namespace QuotaWarden

open TimeScale

variable {σ τ : Type} [ClusterApi σ]

/-- How a policy is enforced. -/
structure EnforcementOptions where
  /-- Whether victims are only logged. -/
  dryRun : Bool
  /-- The most deletes. -/
  cap : Int
  /-- Whether deletes are counted. -/
  counted : Bool
  /-- The choice of a victim. -/
  choose : List Pod → Reason → Except Fault (Option Pod)

/-- The options in use. -/
def EnforcementOptions.standard : EnforcementOptions := ⟨false, enforcementCap, true, selectVictim⟩

/-- The wording of a verdict when no victim can be found. -/
def noVictimMessage : String := "violation but no suitable pod to delete"

/-- The time between a refused delete and the next listing. -/
def retryPause [TimeScale τ] : τ := seconds 5 1

/-- The time between a delete and the next listing. -/
def convergencePause [TimeScale τ] : τ := seconds 4 1

def listNamespace (ns : Json) : Act (Site σ τ) (List Pod) := do
  match ← Act.attempt (Site.call (ClusterApi.listPods ns)) with
  | .ok pods => return pods
  | .error (.refused r) => Act.fail (.podsNotListed ns r)
  | .error f => Act.fail f

/-- Compares the usage of a namespace with a policy: the verdict and the pods. -/
def evaluateNamespace (ns : Json) (p : Policy) : Act (Site σ τ) (Verdict × List Pod) := do
  let pods ← listNamespace ns
  let verdict ← Act.lift (do (← Usage.ofPods pods).evaluate p)
  return (verdict, pods)

/-- Deletes a pod with `deleteGraceSeconds`; a refusal that `isMissing` counts as success. -/
def deletePod (p : Pod) : Act (Site σ τ) Unit := do
  match p.metadata with
  | none => Act.fail (.noField "NoneType" "name")
  | some m =>
    match ← Act.attempt (Site.call (ClusterApi.deletePod m.ns m.name deleteGraceSeconds)) with
    | .ok () => return ()
    | .error (.refused r) => if r.isMissing then return () else Act.fail (.refused r)
    | .error f => Act.fail f

def podLabel (ns : Json) (p : Pod) : String :=
  ns.display ++ "/" ++ ((p.metadata.bind (·.name)).getD "None")

/-- What came of trying to evict a pod. -/
inductive Attempt where
  | deleted
  | refused (r : Refusal)

/-- Tries to evict a pod, and pauses. -/
def evict [TimeScale τ] (o : EnforcementOptions) (ns : Json) (p : Policy) (v : Verdict)
    (round : Nat) (victim : Pod) : Act (Site σ τ) Attempt := do
  match ← Act.attempt (deletePod victim) with
  | .error (.refused r) =>
    Site.say .error ("Failed to delete pod " ++ podLabel ns victim ++ ": " ++ r.text)
    Site.sleep retryPause
    return .refused r
  | .error f => Act.fail f
  | .ok () =>
    Site.say .info ("Deleted " ++ podLabel ns victim ++ " to enforce policy " ++ p.name.display ++
      " (" ++ v.message ++ ", iteration " ++ toString round ++ ")")
    if o.counted then Site.tally (.acted "delete" ns.display)
    Site.sleep convergencePause
    return .deleted

/-- The end of an enforcement that has reached its cap. -/
def concludeEnforcement (o : EnforcementOptions) (ns : Json) (p : Policy)
    (lastRefusal : Option Refusal) : Act (Site σ τ) Verdict := do
  let (verdict, _) ← evaluateNamespace ns p
  if verdict.violated then
    match lastRefusal with
    | some r => Act.fail (.stillViolated ns p.name.display verdict.message r)
    | none =>
      Site.say .warning ("Namespace " ++ ns.display ++ " still violates " ++ p.name.display ++
        " after " ++ toString o.cap ++ " iterations (" ++ verdict.message ++
        "), will retry next cycle")
      return verdict
  else return verdict

/-- Evicts pods, so many at most; `lastRefusal` is the refusal of the last delete. -/
def enforceRounds [TimeScale τ] (o : EnforcementOptions) (ns : Json) (p : Policy) :
    Nat → Nat → Option Refusal → Act (Site σ τ) Verdict
  | 0, _, lastRefusal => concludeEnforcement o ns p lastRefusal
  | left + 1, round, _ => do
    let (verdict, pods) ← evaluateNamespace ns p
    if !verdict.violated then return verdict
    else
      match ← Act.lift (o.choose pods verdict.reason) with
      | none =>
        Site.say .warning ("Namespace " ++ ns.display ++ " violates " ++ p.name.display ++ " (" ++
          verdict.message ++ ") but has no pod to delete")
        return verdict.withMessage noVictimMessage
      | some victim =>
        if o.dryRun then
          Site.say .info ("[DRY-RUN] Would delete pod " ++ podLabel ns victim ++ " (" ++
            verdict.message ++ ")")
          return verdict
        else
          match ← evict o ns p verdict round victim with
          | .deleted => enforceRounds o ns p left (round + 1) none
          | .refused r => enforceRounds o ns p left (round + 1) (some r)

/-- Evicts pods of a namespace until its usage respects a policy. -/
def enforce [TimeScale τ] (o : EnforcementOptions) (ns : Json) (p : Policy) :
    Act (Site σ τ) Verdict := enforceRounds o ns p o.cap.toNat 1 none

end QuotaWarden
