import QuotaWarden.Operator.Reconcile

/-!
# Running the operator

The operator's threads take turns: a thread that is started runs until it waits for something that
does not come, or it is kept for later, or its start is only noted.

* `ThreadMode` says which; `Operator.launch` starts a thread, `Operator.perform` is what it does.
* `Operator.startCaches` starts the caches, `Operator.run` runs the operator from start to shutdown.
-/

namespace QuotaWarden

/-- What becomes of a thread that is started. -/
inductive ThreadMode where
  /-- Its start is only noted. -/
  | noted
  /-- It runs at once. -/
  | atOnce
  /-- It is kept for later. -/
  | later
deriving DecidableEq, Repr

namespace Operator

variable {σ τ : Type} [TimeScale τ] [Surroundings σ τ]

/-- Tells of the objects of a cache at intervals. -/
def resyncCache (options : OperatorOptions τ) (k : WatchedKind)
    (handlers : List (Change → Act (Operator σ τ) Unit)) (o : Operator σ τ) : Operator σ τ :=
  ((watcher options.watch k handlers id).resyncLoop options.roundLimit o).2

def noteThread (t : Task) (o : Operator σ τ) : Operator σ τ :=
  { o with site := o.site.note (.thread t.name) }

/-- Starts a thread; `body` is what it does. -/
def begin (mode : ThreadMode) (t : Task) (body : Operator σ τ → Operator σ τ) (o : Operator σ τ) :
    Operator σ τ :=
  let o := o.noteThread t
  match mode with
  | .noted => o
  | .atOnce => body o
  | .later => { o with pending := o.pending ++ [t] }

/-- Lists and watches the objects of a kind. -/
def watchKind (options : OperatorOptions τ) (mode : ThreadMode) (k : WatchedKind)
    (handlers : List (Change → Act (Operator σ τ) Unit)) (o : Operator σ τ) : Operator σ τ :=
  let startResync := begin mode (.cacheResync k) (resyncCache options k handlers)
  ((watcher options.watch k handlers startResync).run options.roundLimit o).2

/-- Queues all namespaces at intervals until the stop signal is set; a listing that breaks off ends
it. -/
def resyncRounds (interval : τ) : Nat → Operator σ τ → Operator σ τ
  | 0, o => o
  | n + 1, o =>
    match o.site.wait interval with
    | (.never, site) => { o with site }
    | (.stopped, site) => { o with site }.inform "[Resync] Stopping periodic sync loop"
    | (.elapsed, site) =>
      match resyncAll { o with site } with
      | (.ok _, o) => resyncRounds interval n o
      | (.error _, o) => o

/-- Queues all namespaces at intervals. -/
def resyncNamespaces (options : OperatorOptions τ) (o : Operator σ τ) : Operator σ τ :=
  let o := o.inform ("Starting periodic resync (interval: " ++ options.intervalText ++ "s)")
  match options.resyncInterval with
  | some interval => resyncRounds interval options.roundLimit o
  | none => o

/-- Waits for the first list of a cache: whether it came, and how often the cache was polled.
Nothing if it is waited for without end. -/
def awaitCache (limit : Nat) (deadline : Option τ) (k : WatchedKind) (o : Operator σ τ) :
    Option (Bool × Nat) × Operator σ τ :=
  match awaitSync (o.cache k).synced o.site.stopped deadline limit o.site.now with
  | some (synced, polls, now) => (some (synced, polls), { o with site := { o.site with now } })
  | none => (none, o)

/-- Waits for the cache of policies and announces it. -/
def announceCache (limit : Nat) (o : Operator σ τ) : Operator σ τ :=
  match o.awaitCache limit none .policies with
  | (some (true, _), o) => { o with ready := true }
  | (_, o) => o

/-- What the thread of a task does. -/
def perform (options : OperatorOptions τ) (mode : ThreadMode)
    (handlers : WatchedKind → List (Change → Act (Operator σ τ) Unit)) (t : Task)
    (o : Operator σ τ) : Operator σ τ :=
  match t with
  | .watcher k => watchKind options mode k (handlers k) o
  | .cacheResync k => resyncCache options k (handlers k) o
  | .worker _ => work options.enforcement options.roundLimit o
  | .namespaceResync => resyncNamespaces options o
  | .cacheReady => announceCache options.roundLimit o

/-- The handlers of the operator: each cache queues namespaces. -/
def queueHandlers (k : WatchedKind) : List (Change → Act (Operator σ τ) Unit) := [noteChange k]

def launch (options : OperatorOptions τ) (mode : ThreadMode) (t : Task) (o : Operator σ τ) :
    Operator σ τ := begin mode t (perform options mode queueHandlers t) o

/-- The caches in the order in which they are started. -/
def cacheOrder : List WatchedKind := [.namespaces, .pods, .policies]

def startCaches (options : OperatorOptions τ) (mode : ThreadMode) (o : Operator σ τ) :
    Operator σ τ :=
  if o.cachesStarted then o
  else
    cacheOrder.foldl (fun o k => launch options mode (.watcher k) o)
      { o with cachesStarted := true }

/-- Waits for the first lists of caches, one after the other. -/
def awaitCaches (limit : Nat) : List WatchedKind → Operator σ τ → Option Bool × Operator σ τ
  | [], o => (some true, o)
  | k :: r, o =>
    match o.awaitCache limit none k with
    | (some (true, _), o) => awaitCaches limit r o
    | (some (false, _), o) => (some false, o)
    | (none, o) => (none, o)

def banner : String := String.ofList (List.replicate 60 '=')

def shutQueueDown (o : Operator σ τ) : Operator σ τ :=
  { o.inform o.queue.shutdownNotice with queue := o.queue.shutDown }

def join (name : String) (o : Operator σ τ) : Operator σ τ :=
  { o with site := o.site.note (.join name) }

/-- Works with so many workers until the stop signal is set, and shuts down. -/
def serve (options : OperatorOptions τ) (mode : ThreadMode) (workers : Nat) (o : Operator σ τ) :
    Operator σ τ :=
  let tasks := (List.range workers).map Task.worker
  let o := tasks.foldl (fun o t => launch options mode t o) o
  let o := launch options mode .namespaceResync o
  let o := { o with site := o.site.stop }.inform "Shutting down work queue..."
  let o := o.shutQueueDown
  let o := tasks.foldl (fun o t => o.join t.name) o
  let o := cacheOrder.foldl (fun o k => o.join (Task.watcher k).name) o
  o.inform "Controller stopped gracefully"

/-- The count that a value is; a negative one counts as zero. -/
def count (v : Json) : Except Fault Nat :=
  match v with
  | .int n => .ok n.toNat
  | .bool b => .ok b.toNat
  | v => .error (.notACount v.kindName)

/-- Announces the operator and its workers, and works. -/
def announce (options : OperatorOptions τ) (mode : ThreadMode) (workers : Json) :
    Act (Operator σ τ) Unit := do
  Act.change fun o =>
    { o with ready := true }.inform ("Starting " ++ workers.display ++ " workers...")
  let n ← Act.lift (count workers)
  Act.change (serve options mode n)

/-- Runs the operator with so many workers; only the first run has an effect. -/
def run (options : OperatorOptions τ) (mode : ThreadMode) (workers : Json) :
    Act (Operator σ τ) Unit := fun o =>
  if o.running then (.ok (), o.log ⟨.warning, "Controller is already running"⟩)
  else
    let o := { o with running := true }
    let o := o.inform banner
    let o := o.inform "Starting Resource Quota Enforcer controller"
    let o := o.inform banner
    let o := startCaches options mode o
    match awaitCaches options.roundLimit cacheOrder o with
    | (some true, o) => announce options mode workers o
    | (some false, o) => (.ok (), (o.log ⟨.error, "Failed to sync caches, exiting"⟩).shutQueueDown)
    | (none, o) => (.ok (), o)

end Operator

end QuotaWarden
