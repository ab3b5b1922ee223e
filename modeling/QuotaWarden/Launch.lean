import QuotaWarden.Operator.Run
import QuotaWarden.Program

/-!
# Launching a command

The controller runs the operator beside a server for its health; the signals for interrupt and
termination set the stop signal. The webhook starts the cache of policies, waits a while for it, and
then serves, whether the cache is ready or not.

* `Circumstances` is what happens to a command from outside, `Launch` the state of the program.
* `runController` and `runWebhook` run the commands, `launching` is the program that does.
-/

namespace QuotaWarden

structure WebServer where
  title : String
  /-- The address on which it listens. -/
  host : String
  port : Option Int
  /-- The files of the certificate and of its key, if the server uses them. -/
  tls : Option (Option String × Option String)
  logLevel : String
deriving DecidableEq, Repr

/-- A server that listens on every address and logs warnings. -/
def WebServer.ofPort (title : String) (port : Option Int)
    (tls : Option (Option String × Option String)) : WebServer :=
  ⟨title, "0.0.0.0", port, tls, "warning"⟩

/-- What happens to a command from outside. -/
structure Circumstances (τ : Type) where
  /-- The signal that comes as soon as it is handled. -/
  signal : Option Int
  /-- When threads of caches run. -/
  caches : ThreadMode
  /-- How the server of the webhook breaks off. -/
  serverFault : Option Fault
  /-- The most rounds of a loop. -/
  roundLimit : Nat
  /-- A number of seconds as an amount of time. -/
  time : Seconds → τ

/-- The state of the program: the operator, the signals and the servers. -/
structure Launch (σ τ : Type) where
  operator : Operator σ τ
  verbose : Bool
  /-- The signals that are handled. -/
  signals : List Int
  /-- The servers beside a command, each with whether it has been told to end. -/
  beside : List (WebServer × Bool)
  /-- The servers that a command has run, each with whether the program was ready when it started.
  -/
  served : List (WebServer × Bool)

namespace Launch

variable {σ τ : Type}

def start [TimeScale τ] (cluster : σ) : Launch σ τ := ⟨.start cluster, false, [], [], []⟩

def alter (f : Operator σ τ → Operator σ τ) (l : Launch σ τ) : Launch σ τ :=
  { l with operator := f l.operator }

/-- Lets an action on the operator act on the program. -/
def onOperator (a : Act (Operator σ τ) α) : Act (Launch σ τ) α :=
  Act.within operator (fun o l => { l with operator := o }) a

def log (line : LogLine) : Launch σ τ → Launch σ τ := alter (Operator.log line)

def inform (text : String) : Launch σ τ → Launch σ τ := alter (Operator.inform text)

variable [Surroundings σ τ]

def stop : Launch σ τ → Launch σ τ := alter fun o => { o with site := o.site.stop }

/-! ### The controller -/

/-- The signals that stop the controller: interrupt and termination. -/
def stopSignals : List Int := [2, 15]

/-- Handles a signal from now on. -/
def handleSignal (c : Circumstances τ) (l : Launch σ τ) (signal : Int) : Launch σ τ :=
  let l := { l with signals := l.signals ++ [signal] }
  if c.signal = some signal then
    (l.inform ("Received signal " ++ toString signal ++ ", shutting down...")).stop
  else l

/-- Starts a server beside the command. -/
def startServer (server : WebServer) (l : Launch σ τ) : Launch σ τ :=
  let port := showGiven toString server.port
  let l := l.alter fun o => { o with site := o.site.note (.thread ("http-" ++ port)) }
  { l with beside := l.beside ++ [(server, false)] }.inform ("HTTP endpoints started on :" ++ port)

/-- Tells the servers beside the command to end. -/
def endServers (l : Launch σ τ) : Launch σ τ :=
  { l with beside := l.beside.map fun e => (e.1, true) }

/-- The way in which a command enforces. -/
def enforcementOptions (dryRun : Bool) : EnforcementOptions :=
  ⟨dryRun, enforcementCap, true, selectVictim⟩

/-- The times of a cache. -/
def watchSettings [TimeScale τ] (settings : Settings) (c : Circumstances τ) (resync : Seconds) :
    WatchSettings τ :=
  let (initial, cap) : τ × τ := standardBackoff
  ⟨c.time resync, .int settings.watchTimeout, initial, cap⟩

def controllerOptions [TimeScale τ] (settings : Settings) (c : Circumstances τ)
    (a : ControllerArguments) : OperatorOptions τ where
  enforcement := enforcementOptions a.dryRun
  resyncInterval := a.resync.map c.time
  intervalText := showGiven Seconds.display a.resync
  watch := watchSettings settings c (.whole settings.cacheResync)
  roundLimit := c.roundLimit

/-- A count from the command line; one that is missing is an empty list, which is no count. -/
def givenCount : Option Int → Json
  | some n => .int n
  | none => .arr []

/-- `Operator.run` between `startServer` and `endServers`, with `stopSignals` handled. -/
def runController [TimeScale τ] (settings : Settings) (c : Circumstances τ)
    (a : ControllerArguments) : Act (Launch σ τ) Unit := do
  Act.change fun l => stopSignals.foldl (handleSignal c) l
  Act.change (startServer (.ofPort "resource-quota-enforcer" a.metricsPort none))
  let outcome ← Act.attempt
    (onOperator (Operator.run (controllerOptions settings c a) c.caches (givenCount a.workers)))
  Act.change endServers
  Act.lift outcome

/-! ### The webhook -/

/-- How the webhook works; it does not enforce. -/
def webhookOptions [TimeScale τ] (settings : Settings) (c : Circumstances τ)
    (a : WebhookArguments) : OperatorOptions τ where
  enforcement := enforcementOptions false
  resyncInterval := none
  intervalText := ""
  watch := watchSettings settings c (a.resync.getD (.whole 0))
  roundLimit := c.roundLimit

/-- What a thread of the webhook does. Nobody is told of changes of policies. The thread of a cache
that misses the time between its rounds of synthetic changes ends as soon as it has started. -/
def webhookTask [TimeScale τ] (settings : Settings) (c : Circumstances τ) (a : WebhookArguments)
    (t : Task) (o : Operator σ τ) : Operator σ τ :=
  let options := webhookOptions settings c a
  match t, a.resync with
  | .watcher k, none => (Operator.watcher options.watch k [] id).announce o
  | t, _ => Operator.perform options c.caches (fun _ => []) t o

def startPolicies [TimeScale τ] (settings : Settings) (c : Circumstances τ) (a : WebhookArguments)
    (o : Operator σ τ) : Operator σ τ :=
  Operator.begin c.caches (.watcher .policies) (webhookTask settings c a (.watcher .policies)) o

/-- Waits a while for the cache of policies. If it does not come in time, a thread waits on. -/
def awaitPolicies [TimeScale τ] (c : Circumstances τ) (o : Operator σ τ) : Operator σ τ :=
  let deadline := o.site.now + c.time (.whole cacheReadyTimeout)
  match o.awaitCache c.roundLimit (some deadline) .policies with
  | (some (true, _), o) => { o.inform "Policy cache ready" with ready := true }
  | (_, o) =>
    Operator.begin .later .cacheReady id
      (o.log ⟨.warning, "Policy cache not ready in time (continuing; cache misses possible)"⟩)

/-- Runs the threads that were kept for later, also those that they start, so many at most. -/
def runPending (run : Task → Operator σ τ → Operator σ τ) : Nat → Operator σ τ → Operator σ τ
  | 0, o => o
  | n + 1, o =>
    match o.pending with
    | [] => o
    | t :: r => runPending run n (run t { o with pending := r })

/-- Runs a server until it ends; the threads that were kept for later run meanwhile. -/
def serve (c : Circumstances τ) (run : Task → Operator σ τ → Operator σ τ) (server : WebServer) :
    Act (Launch σ τ) Unit := fun l =>
  let l := { l with served := l.served ++ [(server, l.operator.ready)] }
  let l := l.alter (runPending run c.roundLimit)
  match c.serverFault with
  | some f => (.error f, l)
  | none => (.ok (), l)

/-- `startPolicies`, `awaitPolicies` and `serve`; at the end the stop signal is set. -/
def runWebhook [TimeScale τ] (settings : Settings) (c : Circumstances τ) (a : WebhookArguments) :
    Act (Launch σ τ) Unit := do
  Act.change (alter (startPolicies settings c a))
  Act.change (alter (awaitPolicies c))
  Act.change (inform ("Starting webhook server on :" ++ showGiven toString a.listenPort))
  let outcome ← Act.attempt (serve c (webhookTask settings c a)
    (.ofPort "resource-quota-enforcer-webhook" a.listenPort
      (some (a.certificateFile, a.keyFile))))
  Act.change fun l => (l.inform "Shutting down webhook server").stop
  Act.lift outcome

/-! ### The program -/

def runCommand [TimeScale τ] (settings : Settings) (c : Circumstances τ) :
    Arguments → Act (Launch σ τ) Unit
  | .controller a => runController settings c a
  | .webhook a => runWebhook settings c a

end Launch

/-- The program that launches its commands; the cluster is found at once. -/
def launching {σ τ : Type} [TimeScale τ] [Surroundings σ τ] (settings : Settings)
    (c : Circumstances τ) : Program (Launch σ τ) where
  log := Launch.log
  tellMore l := { l with verbose := true }
  findCluster _ := return ()
  command := Launch.runCommand settings c

end QuotaWarden
