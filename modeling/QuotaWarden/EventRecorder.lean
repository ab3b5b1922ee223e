import QuotaWarden.Pod.Reader
import QuotaWarden.Policy
import QuotaWarden.Settings
import QuotaWarden.Site

/-!
# Recording events

Events tell the readers of a policy what is done about it. They are posted as well as can be: an
event that the cluster does not take is logged and forgotten.

* `recordEvent` posts an event about a policy.
-/

namespace QuotaWarden

variable {σ τ : Type} [ClusterApi σ]

inductive EventType where
  | normal
  | warning
deriving DecidableEq, Repr

def EventType.name : EventType → String
  | normal => "Normal"
  | warning => "Warning"

/-- An event about a policy; the cluster keeps only texts. -/
def eventAbout (source : Json) (p : Policy) (type reason message : Json) :
    Except Fault ClusterEvent := do
  let ns ← optionalText p.ns
  let policy ← optionalText p.name
  let type ← optionalText type
  let reason ← optionalText reason
  let message ← optionalText message
  let source ← optionalText source
  return ⟨p.name.display ++ ".", ns, policy, type, reason, message, source⟩

/-- Why an event was not taken. -/
def eventFailure : Fault → String
  | .refused r => r.text
  | f => f.message

/-- Posts an event about a policy: the event, if the cluster took it. -/
def recordEventFrom (source : Json) (p : Policy) (type reason message : Json) :
    Act (Site σ τ) (Option ClusterEvent) := do
  let event ← Act.lift (eventAbout source p type reason message)
  match ← Act.attempt (Site.call (ClusterApi.createEvent event)) with
  | .ok e => return some e
  | .error f =>
    Site.say .warning ("Failed to record " ++ reason.display ++ " event for " ++ p.ns.display ++
      "/" ++ p.name.display ++ ": " ++ eventFailure f)
    return none

/-- Posts an event of the operator about a policy. -/
def recordEvent (p : Policy) (type : EventType) (reason message : String) :
    Act (Site σ τ) (Option ClusterEvent) :=
  recordEventFrom (.str eventSource) p (.str type.name) (.str reason) (.str message)

end QuotaWarden
