import QuotaWarden.Admission
import QuotaWarden.PolicyStatus
import QuotaWarden.EventRecorder
import QuotaWarden.Surroundings
import QuotaWarden.WorkQueue

/-!
# The state of the operator

The operator keeps namespaces, pods and policies in caches. A change of an object queues the
namespace that it is about. It also keeps the policy that each namespace was last reconciled
against.

* `Operator` is the state, `Operator.watcher` lets one of its caches list and watch.
* `Operator.onSite` lets an action on the surroundings act on the operator.
-/

namespace QuotaWarden

open TimeScale

structure OperatorOptions (τ : Type) where
  enforcement : EnforcementOptions
  /-- The time between two rounds through all namespaces, and its text. Where it is missing there
  are no rounds. -/
  resyncInterval : Option τ
  intervalText : String
  /-- The times of the caches. -/
  watch : WatchSettings τ
  /-- The most rounds of a loop. -/
  roundLimit : Nat

/-- A thread of the operator. -/
inductive Task where
  | watcher (k : WatchedKind)
  | cacheResync (k : WatchedKind)
  | worker (number : Nat)
  | namespaceResync
  /-- Waits for the cache of policies and announces it. -/
  | cacheReady
deriving DecidableEq, Repr

def Task.name : Task → String
  | watcher k => k.name ++ "-watcher"
  | cacheResync k => k.name ++ "-resync"
  | worker n => "worker-" ++ toString n
  | namespaceResync => "namespace-resync"
  | cacheReady => "cache-ready"

/-- The operator: three caches, a queue of namespaces, and what it runs on. -/
structure Operator (σ τ : Type) where
  site : Site σ τ
  namespaces : WatchCache
  pods : WatchCache
  policies : WatchCache
  queue : WorkQueue Key τ
  /-- The policy that each namespace was last reconciled against. -/
  enforced : List (Key × Policy)
  /-- Whether the caches have been synced. -/
  ready : Bool
  cachesStarted : Bool
  running : Bool
  /-- Threads that have started and do not run yet. -/
  pending : List Task

namespace Operator

variable {σ τ : Type}

def start [TimeScale τ] (cluster : σ) : Operator σ τ where
  site := ⟨cluster, 0, [], .zero⟩
  namespaces := .empty WatchedKind.namespaces.name
  pods := .empty WatchedKind.pods.name
  policies := .empty WatchedKind.policies.name
  queue := .empty "resource-quota-enforcer" WorkQueue.standardBase WorkQueue.standardCap
  enforced := []
  ready := false
  cachesStarted := false
  running := false
  pending := []

/-- Lets an action on the surroundings act on the operator. -/
def onSite (a : Act (Site σ τ) α) : Act (Operator σ τ) α :=
  Act.within site (fun t o => { o with site := t }) a

def log (l : LogLine) (o : Operator σ τ) : Operator σ τ := { o with site := o.site.note (.log l) }

def inform (text : String) (o : Operator σ τ) : Operator σ τ := o.log ⟨.info, text⟩

def cache (k : WatchedKind) (o : Operator σ τ) : WatchCache :=
  match k with
  | .namespaces => o.namespaces
  | .pods => o.pods
  | .policies => o.policies

def setCache (k : WatchedKind) (c : WatchCache) (o : Operator σ τ) : Operator σ τ :=
  match k with
  | .namespaces => { o with namespaces := c }
  | .pods => { o with pods := c }
  | .policies => { o with policies := c }

def enqueue (k : Key) (o : Operator σ τ) : Operator σ τ := { o with queue := o.queue.add k }

/-- The namespace that an object of a kind is about. -/
def subject (k : WatchedKind) (m : ObjectMeta) : Json :=
  match k with
  | .namespaces => m.name
  | _ => m.ns

/-- Queues a namespace; a queue that shuts down does not even look at it. -/
def enqueueValue (v : Json) : Act (Operator σ τ) Unit := fun o =>
  if o.queue.shuttingDown then (.ok (), o)
  else
    match Key.ofJson v with
    | .error f => (.error f, o)
    | .ok key => (.ok (), o.enqueue key)

/-- Queues the namespace that a change is about, if there is one. -/
def noteChange (k : WatchedKind) (c : Change) : Act (Operator σ τ) Unit := fun o =>
  match c.object.metadata with
  | .error f => (.error f, o)
  | .ok m => if (subject k m).truthy then enqueueValue (subject k m) o else (.ok (), o)

/-- Lets a cache list and watch. `handlers` are told of its changes, `startResync` starts the thread
that tells of all objects at intervals. -/
def watcher [TimeScale τ] [Surroundings σ τ] (settings : WatchSettings τ) (k : WatchedKind)
    (handlers : List (Change → Act (Operator σ τ) Unit))
    (startResync : Operator σ τ → Operator σ τ) : Watcher (Operator σ τ) τ where
  cache := cache k
  setCache := setCache k
  handlers _ := handlers
  log := log
  settings := settings
  stopped o := o.site.stopped
  stop o := { o with site := o.site.stop }
  now o := o.site.now
  pass t o := { o with site := { o.site with now := o.site.now + t } }
  list := onSite (Site.call k.list)
  openStream v o :=
    let (stream, cluster) := Surroundings.openStream k v o.site.cluster
    (stream, { o with site := { o.site with cluster } })
  closeStream o := o
  wait t o :=
    let (outcome, site) := o.site.wait t
    (outcome, { o with site })
  startResync := startResync

end Operator

end QuotaWarden
