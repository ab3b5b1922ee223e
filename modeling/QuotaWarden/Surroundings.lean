import QuotaWarden.Site
import QuotaWarden.WatchCache.Loop

/-!
# Watching a cluster

Besides its calls a cluster offers streams of events, and the process around the operator can be
told to stop.

* `Surroundings σ τ` is what a state must offer to run the operator on it.
* `Site.wait` waits for the stop signal and notes it.
-/

namespace QuotaWarden

inductive WatchedKind where
  | namespaces
  | pods
  | policies
deriving DecidableEq, Repr

def WatchedKind.name : WatchedKind → String
  | namespaces => "namespaces"
  | pods => "pods"
  | policies => "policies"

/-- The kind that a word names. -/
def WatchedKind.ofName? (text : String) : Option WatchedKind :=
  [namespaces, pods, policies].find? fun k => k.name = text

theorem WatchedKind.ofName?_name (k : WatchedKind) : ofName? k.name = some k := by cases k <;> rfl

def WatchedKind.list {σ : Type} [ClusterApi σ] : WatchedKind → Act σ ApiObject
  | namespaces => NamespaceList.response <$> ClusterApi.listNamespaces
  | pods => ClusterApi.listAllPods
  | policies => ClusterApi.listPolicies

/-- What the operator runs on: a cluster with streams, and a stop signal. -/
class Surroundings (σ τ : Type) extends ClusterApi σ where
  /-- Opens a stream from a version. -/
  openStream : WatchedKind → Json → σ → WatchStream τ × σ
  stopped : σ → Bool
  stop : σ → σ
  /-- Waits for the stop signal, so long at most. -/
  wait : τ → σ → WaitEnd × σ

namespace Site

variable {σ τ : Type} [Surroundings σ τ]

def stopped (s : Site σ τ) : Bool := Surroundings.stopped τ s.cluster

def stop (s : Site σ τ) : Site σ τ := { s with cluster := Surroundings.stop τ s.cluster }

/-- Waits for the stop signal; `t` passes on the clock. -/
def wait [TimeScale τ] (t : τ) (s : Site σ τ) : WaitEnd × Site σ τ :=
  let (outcome, cluster) := Surroundings.wait t s.cluster
  (outcome, { s.note (.wait t) with cluster, now := s.now + t })

end Site

end QuotaWarden
