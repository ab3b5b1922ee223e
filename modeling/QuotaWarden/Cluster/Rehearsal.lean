import QuotaWarden.Cluster.InMemory
import QuotaWarden.Surroundings

/-!
# Rehearsing a run

A cluster in memory together with a plan of what else happens to the operator: the streams of events
to come, and how waiting for the stop signal ends.

* `WaitPlan` decides how a wait ends; `Rehearsal` is the cluster with the plan.
-/

namespace QuotaWarden

/-- How waits for the stop signal end. -/
structure WaitPlan (τ : Type) where
  /-- The waits that pass a number of times and then do not end. -/
  ticking : τ → Bool
  ticks : Nat
  /-- The waits that do not end. -/
  endless : τ → Bool
  /-- The number of waits with which the signal is set. -/
  stopAfter : Option Nat
  /-- The number of waits so far. -/
  count : Nat

/-- A cluster in memory with a plan. -/
structure Rehearsal (τ : Type) where
  cluster : InMemory
  stopped : Bool
  plan : WaitPlan τ
  /-- The streams to come for each kind; after the last one a stream stays open without events. -/
  streams : List (WatchedKind × List (WatchStream τ))

namespace Rehearsal

variable {τ : Type}

/-- A rehearsal on a cluster, without streams. -/
def start (cluster : InMemory) (plan : WaitPlan τ) : Rehearsal τ := ⟨cluster, false, plan, []⟩

def onCluster (a : Act InMemory α) : Act (Rehearsal τ) α :=
  Act.within cluster (fun c r => { r with cluster := c }) a

instance : ClusterApi (Rehearsal τ) where
  listPods ns := onCluster (InMemory.listPods ns)
  listAllPods := onCluster InMemory.listAllPods
  listNamespaces := onCluster InMemory.listNamespaces
  listPolicies := onCluster InMemory.listPolicies
  deletePod ns name grace := onCluster (InMemory.deletePod ns name grace)
  getPolicy ns name := onCluster (InMemory.getPolicy ns name)
  patchStatus ns name body := onCluster (InMemory.patchStatus ns name body)
  createEvent e := onCluster (InMemory.createEvent e)

def nextStream [TimeScale τ] (k : WatchedKind) (r : Rehearsal τ) : WatchStream τ × Rehearsal τ :=
  match Dictionary.get? k r.streams with
  | some (stream :: rest) => (stream, { r with streams := Dictionary.set k rest r.streams })
  | _ => (⟨[], 0, .endless, false⟩, r)

def stop (r : Rehearsal τ) : Rehearsal τ := { r with stopped := true }

/-- How a wait ends that the plan lets pass: at once if the stop signal is set. -/
def passing (r : Rehearsal τ) : WaitEnd := if r.stopped then .stopped else .elapsed

/-- Waits for the stop signal. A wait that the plan does not let end does not end for a signal that
is already set either. -/
def wait (t : τ) (r : Rehearsal τ) : WaitEnd × Rehearsal τ :=
  let r := { r with plan.count := r.plan.count + 1 }
  if r.plan.ticking t then
    if r.plan.ticks = 0 then (.never, r)
    else (r.passing, { r with plan.ticks := r.plan.ticks - 1 })
  else if r.plan.endless t then (.never, r)
  else
    match r.plan.stopAfter with
    | some n => if n ≤ r.plan.count then (.stopped, r.stop) else (r.passing, r)
    | none => (r.passing, r)

instance [TimeScale τ] : Surroundings (Rehearsal τ) τ where
  openStream k _ r := nextStream k r
  stopped r := r.stopped
  stop := stop
  wait := wait

end Rehearsal

end QuotaWarden
