import QuotaWarden.TimeScale
import QuotaWarden.WatchCache.Delivery

/-!
# List and watch

A cache is kept current by a loop: list, then watch from the listed version until the stream ends,
then list again. Failures and streams that end early are followed by a pause, which doubles from one
to the next up to a cap; a stream that has lasted at least half of its time sets the pause back.

* `WatchStream` is a stream of events with the way it ends.
* `Watcher` is what the loop needs of its surroundings; `Watcher.watch` consumes one stream,
  `Watcher.step` lists, watches and pauses once, `Watcher.run` is the loop.
* `Watcher.resyncLoop` tells of all objects at intervals, `awaitSync` waits for the first list.
-/

namespace QuotaWarden

open TimeScale

structure WatchEvent where
  type : String
  object : ApiObject

/-- How a stream ends after its events. -/
inductive StreamEnd where
  | closed
  | failed (f : Fault)
  /-- It stays open, and no more events come. -/
  | endless

/-- A stream of events. -/
structure WatchStream (τ : Type) where
  /-- The events, each with whether the stop signal is set when it comes. -/
  events : List (WatchEvent × Bool)
  /-- How long the stream lasts after its events. -/
  lasts : τ
  ending : StreamEnd
  /-- Whether the stop signal is set when the stream closes. -/
  stops : Bool

structure WatchSettings (τ : Type) where
  /-- The time between two rounds of synthetic changes; no rounds if it is not positive. -/
  resyncPeriod : τ
  /-- The time after which a stream is to end; one that lasts half of it has not ended early. -/
  timeout : Json
  backoffInitial : τ
  backoffMax : τ

/-- The first and the largest pause in use. -/
def standardBackoff [TimeScale τ] : τ × τ := (seconds 1 0, seconds 30 0)

/-- What came of waiting for the stop signal. -/
inductive WaitEnd where
  | stopped
  | elapsed
  /-- The wait does not end. -/
  | never
deriving DecidableEq, Repr

/-- What the loop needs of its surroundings. -/
structure Watcher (S τ : Type) extends CacheHost S where
  settings : WatchSettings τ
  stopped : S → Bool
  stop : S → S
  now : S → τ
  pass : τ → S → S
  list : Act S ApiObject
  /-- Opens a stream from a version. -/
  openStream : Json → S → WatchStream τ × S
  closeStream : S → S
  wait : τ → S → WaitEnd × S
  /-- Starts the thread that tells of all objects at intervals. -/
  startResync : S → S

/-- What came of going through the events of a stream. -/
inductive EventsEnd where
  /-- All have been applied. -/
  | consumed
  /-- The stream was left before its end. -/
  | left
deriving DecidableEq, Repr

/-- What came of watching, unless it failed. -/
inductive WatchEnd where
  | ended
  | stillOpen
deriving DecidableEq, Repr

/-- What came of one round of the loop. -/
inductive Round where
  /-- The watch lasted long enough. -/
  | healthy
  /-- The watch ended early. -/
  | early
  | failed (f : Fault)
  /-- The watch is still open. -/
  | stillOpen

/-- What follows a round. -/
inductive AfterRound (τ : Type) where
  /-- Another round, with this pause if it fails. -/
  | again (backoff : τ)
  | blocked

/-- How a loop ends. -/
inductive LoopEnd where
  | stopped
  /-- It waits for something that does not come. -/
  | blocked
  /-- The number of rounds allowed is used up. -/
  | unfinished
deriving DecidableEq, Repr

/-- The status of a version that is too old to be watched from. -/
def goneStatus : Int := 410

def Fault.isGone (f : Fault) : Bool :=
  match f.refusal? with
  | some r => r.hasStatus goneStatus
  | none => false

def ApiObject.isGone (o : ApiObject) : Bool := o.code.same (.int goneStatus)

namespace Watcher

variable {S τ : Type}

def reportGone (w : Watcher S τ) (s : S) : S :=
  w.report .info "Resource version expired, re-listing" s

def reportErrorEvent (w : Watcher S τ) (o : ApiObject) (s : S) : S :=
  if o.isGone then w.reportGone s else w.report .warning ("Watch error event: " ++ o.display) s

/-- Applies events until one is an error, cannot be applied, or comes after the stop signal. Events
of unknown types are skipped. -/
def follow (w : Watcher S τ) : List (WatchEvent × Bool) → Act S EventsEnd
  | [], s => (.ok .consumed, s)
  | (e, stops) :: r, s =>
    if stops || w.stopped s then (.ok .left, w.stop s)
    else if e.type = "ERROR" then (.ok .left, w.reportErrorEvent e.object s)
    else
      match ChangeKind.ofName? e.type with
      | none => follow w r s
      | some kind =>
        match w.apply kind e.object s with
        | (.error f, s) => (.error f, s)
        | (.ok _, s) => follow w r s

/-- Ends a watch on a fault: a version that is too old ends it like any other end. -/
def endOnFault (w : Watcher S τ) (f : Fault) (s : S) : Except Fault WatchEnd × S :=
  if f.isGone then (.ok .ended, w.closeStream (w.reportGone s)) else (.error f, w.closeStream s)

/-- Consumes a stream; it is closed unless it stays open. -/
def consume (w : Watcher S τ) (stream : WatchStream τ) : Act S WatchEnd := fun s =>
  match w.follow stream.events s with
  | (.error f, s) => w.endOnFault f s
  | (.ok .left, s) => (.ok .ended, w.closeStream s)
  | (.ok .consumed, s) =>
    let s := w.pass stream.lasts s
    match stream.ending with
    | .endless => (.ok .stillOpen, s)
    | .failed f => w.endOnFault f s
    | .closed => (.ok .ended, w.closeStream (if stream.stops then w.stop s else s))

/-- Opens a stream from `version` and consumes it. -/
def watch (w : Watcher S τ) (version : Json) : Act S WatchEnd := fun s =>
  let (stream, s) := w.openStream version s
  w.consume stream s

/-- Lists through the API and applies the response. -/
def relistNow (w : Watcher S τ) : Act S Json := fun s =>
  let (response, s) := w.list s
  w.relist response s

/-- Lists and watches once. -/
def round [TimeScale τ] (w : Watcher S τ) (s : S) : Round × S :=
  match w.relistNow s with
  | (.error f, s) => (.failed f, s)
  | (.ok version, s) =>
    let started := w.now s
    match w.watch version s with
    | (.error f, s) => (.failed f, s)
    | (.ok .stillOpen, s) => (.stillOpen, s)
    | (.ok .ended, s) =>
      match TimeScale.halved w.settings.timeout with
      | .error f => (.failed f, s)
      | .ok least => (if atMost least (w.now s - started) then .healthy else .early, s)

def reportFailure (w : Watcher S τ) (f : Fault) (s : S) : S :=
  match f.refusal? with
  | some r => w.report .error ("List/watch error: " ++ r.text) s
  | none => w.report .error ("Unexpected list/watch error: " ++ f.message) s

/-- `min (2 * backoff) backoffMax`. -/
def nextBackoff [TimeScale τ] (w : Watcher S τ) (backoff : τ) : τ :=
  less (doubled backoff 1) w.settings.backoffMax

/-- Pauses before the next round. -/
def pause [TimeScale τ] (w : Watcher S τ) (backoff : τ) (s : S) : AfterRound τ × S :=
  match w.wait backoff s with
  | (.never, s) => (.blocked, s)
  | (_, s) => (.again (w.nextBackoff backoff), s)

/-- Lists and watches once, and pauses unless the watch lasted long enough. -/
def step [TimeScale τ] (w : Watcher S τ) (backoff : τ) (s : S) : AfterRound τ × S :=
  match w.round s with
  | (.stillOpen, s) => (.blocked, s)
  | (.healthy, s) => (.again w.settings.backoffInitial, s)
  | (.early, s) => w.pause backoff s
  | (.failed f, s) => w.pause backoff (w.reportFailure f s)

/-- Lists and watches until the stop signal is set, for so many rounds at most. -/
def rounds [TimeScale τ] (w : Watcher S τ) : Nat → τ → S → LoopEnd × S
  | 0, _, s => (.unfinished, s)
  | n + 1, backoff, s =>
    if w.stopped s then (.stopped, w.report .info "Watch cache stopped" s)
    else
      match w.step backoff s with
      | (.blocked, s) => (.blocked, s)
      | (.again backoff, s) => rounds w n backoff s

def announce (w : Watcher S τ) (s : S) : S := w.report .info "Starting watch cache" s

/-- `rounds` from `backoffInitial` on, beside the thread that `startResync` starts. -/
def run [TimeScale τ] (w : Watcher S τ) (limit : Nat) (s : S) : LoopEnd × S :=
  let s := w.announce s
  let s := if positive w.settings.resyncPeriod then w.startResync s else s
  w.rounds limit w.settings.backoffInitial s

/-- Tells of all objects at intervals until the stop signal is set, so many times at most. -/
def resyncLoop (w : Watcher S τ) : Nat → S → LoopEnd × S
  | 0, s => (.unfinished, s)
  | n + 1, s =>
    match w.wait w.settings.resyncPeriod s with
    | (.never, s) => (.blocked, s)
    | (.stopped, s) => (.stopped, s)
    | (.elapsed, s) => resyncLoop w n (w.resync s)

end Watcher

/-- The time between two looks at a cache that is waited for. -/
def syncPoll [TimeScale τ] : τ := seconds 1 1

/-- Polls a cache that is not synced until the stop signal or the deadline, so many times at most:
the number of polls, counted on from `polls`, and the time after. Nothing if they did not suffice.
-/
def pollUnsynced [TimeScale τ] (stopped : Bool) (deadline : Option τ) :
    Nat → Nat → τ → Option (Nat × τ)
  | 0, _, _ => none
  | n + 1, polls, now =>
    let now := now + syncPoll
    if stopped || (deadline.map fun d => atMost d now).getD false then some (polls + 1, now)
    else pollUnsynced stopped deadline n (polls + 1) now

/-- Waits for the first list of a cache, for so many polls at most: whether it has been applied, how
often it was polled, and the time after. Nothing if the polls did not suffice. -/
def awaitSync [TimeScale τ] (synced stopped : Bool) (deadline : Option τ) (limit : Nat) (now : τ) :
    Option (Bool × Nat × τ) :=
  if synced then some (true, 0, now)
  else (pollUnsynced stopped deadline limit 0 now).map fun (polls, now) => (false, polls, now)

end QuotaWarden
