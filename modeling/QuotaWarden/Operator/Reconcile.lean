import QuotaWarden.Operator.Basic

/-!
# Reconciling namespaces

A namespace is reconciled by enforcing its first policy by name and publishing the verdict. A
failure that a retry can mend queues the namespace again after a delay.

* `Operator.sync` reconciles one namespace.
* `Operator.processNext` takes a namespace from the queue, reconciles it and releases it.
* `Operator.resyncAll` queues all namespaces.
-/

namespace QuotaWarden.Operator

variable {σ τ : Type}

/-- Takes out the policy that a namespace was last reconciled against, if there is one. -/
def takeEnforced (ns : Json) (k : Key) : Act (Operator σ τ) (Option Policy) := do
  match Dictionary.get? k (← Act.state).enforced with
  | none => return none
  | some p =>
    Act.change fun o => { o with enforced := Dictionary.erase k o.enforced }
    Act.change (inform ("Removed enforced policy for namespace " ++ ns.display))
    return some p

/-- Forgets the policy that a namespace was last reconciled against. Where there are no policies the
namespace is not even looked at. -/
def removeEnforced (ns : Json) : Act (Operator σ τ) (Option Policy) := do
  if (← Act.state).enforced.isEmpty then return none
  else takeEnforced ns (← Act.lift (Key.ofJson ns))

/-- Remembers the policy that its namespace is reconciled against. -/
def setEnforced (p : Policy) : Act (Operator σ τ) Unit := do
  let ns ← Act.lift (Key.ofJson p.ns)
  Act.change fun o => { o with enforced := Dictionary.set ns p o.enforced }

def policiesOf (ns : Json) : Act (Operator σ τ) (List Policy) := do
  let o ← Act.state
  onSite (QuotaWarden.policiesOf o.policies ns)

section

variable [TimeScale τ] [ClusterApi σ]

/-- Enforces a policy and publishes the verdict. -/
def enforceAndPublish (options : EnforcementOptions) (ns : Json) (p : Policy) :
    Act (Site σ τ) Verdict := do
  let verdict ← enforce options ns p
  let status ← Act.lift verdict.status
  let _ ← publishStatus ns p.name (.obj status.fields)
  return verdict

/-- Counts a failed reconcile and tells of it. -/
def reportFailed (ns : Json) (p : Policy) (f : Fault) : Act (Site σ τ) Unit := do
  Site.tally (.reconciled ns.display true)
  let _ ← recordEvent p .warning "EnforcementFailed"
    ("Failed to enforce policy " ++ p.name.display ++ ": " ++ f.message)

/-- Counts a reconcile and tells of it. -/
def reportSucceeded (ns : Json) (p : Policy) : Act (Site σ τ) Unit := do
  Site.tally (.reconciled ns.display false)
  let _ ← recordEvent p .normal "ReconcileSucceeded"
    ("Successfully enforced ResourceQuotaPolicy " ++ p.name.display)

/-- `enforceAndPublish`, with an event before it and a report after it. -/
def reconcile (options : EnforcementOptions) (ns : Json) (p : Policy) :
    Act (Site σ τ) Verdict := do
  let _ ← recordEvent p .normal "ReconcileStarted"
    ("Started reconciling ResourceQuotaPolicy " ++ p.name.display)
  match ← Act.attempt (enforceAndPublish options ns p) with
  | .ok verdict =>
    reportSucceeded ns p
    return verdict
  | .error f =>
    if f.isReconcileFailure then reportFailed ns p f
    Act.fail f

def warnOfMany (ns : Json) (p : Policy) (count : Nat) : Act (Site σ τ) Unit :=
  if 1 < count then
    Site.say .warning ("Namespace " ++ ns.display ++ " has " ++ toString count ++
      " policies, enforcing " ++ p.name.display)
  else return ()

/-- Reconciles a namespace: the verdict, if the namespace has a policy. -/
def sync (options : EnforcementOptions) (ns : Json) : Act (Operator σ τ) (Option Verdict) := do
  match ← policiesOf ns with
  | [] =>
    let _ ← removeEnforced ns
    return none
  | p :: others =>
    onSite (warnOfMany ns p (others.length + 1))
    setEnforced p
    some <$> onSite (reconcile options ns p)

/-- Queues a namespace again after the delay that its failures ask for. -/
def retryLater (ns : Key) (o : Operator σ τ) : Operator σ τ :=
  let queue := o.queue.addRateLimited o.site.now ns
  let site :=
    if queue.delivering && !o.queue.delivering then o.site.note (.thread queue.loopName) else o.site
  { o with queue, site }

def failureLine (ns : Key) (f : Fault) : LogLine :=
  if f.isReconcileFailure then
    ⟨.error, "Error syncing namespace " ++ ns.display ++ ": " ++ f.message ++ " (will retry)"⟩
  else ⟨.error, "Unexpected error syncing namespace " ++ ns.display ++ " (will retry)"⟩

/-- Reconciles a namespace that was taken from the queue, and releases it. -/
def processKey (options : EnforcementOptions) (ns : Key) (o : Operator σ τ) : Operator σ τ :=
  let (result, o) := sync options ns.toJson o
  let o :=
    match result with
    | .ok _ => { o with queue := o.queue.forget ns }
    | .error f => (o.log (failureLine ns f)).retryLater ns
  { o with queue := o.queue.release ns }

/-- Reconciles the next namespace of the queue: what was taken. -/
def processNext (options : EnforcementOptions) (o : Operator σ τ) : Taken Key × Operator σ τ :=
  let (taken, queue) := o.queue.take
  let o := { o with queue }
  match taken with
  | .key ns => (taken, processKey options ns o)
  | _ => (taken, o)

/-- Works until the queue is empty or shuts down, so many namespaces at most. -/
def work (options : EnforcementOptions) : Nat → Operator σ τ → Operator σ τ
  | 0, o => o
  | n + 1, o =>
    match processNext options o with
    | (.key _, o) => work options n o
    | (_, o) => o

def enqueueAll (names : List (Option String)) (o : Operator σ τ) : Operator σ τ :=
  names.foldl (fun o name => o.enqueue ((name.map Key.text).getD .null)) o

/-- Queues all namespaces: how many there are. A refused listing is logged and queues none. -/
def resyncAll : Act (Operator σ τ) Nat := do
  match ← Act.attempt (onSite (Site.call ClusterApi.listNamespaces)) with
  | .error (.refused r) =>
    Act.change (log ⟨.error, "[Resync] Error listing namespaces: " ++ r.text⟩)
    return 0
  | .error f => Act.fail f
  | .ok l =>
    Act.change (enqueueAll l.names)
    Act.change (inform ("[Resync] Queued " ++ toString l.names.length ++
      " namespaces for periodic enforcement"))
    return l.names.length

end

end QuotaWarden.Operator
