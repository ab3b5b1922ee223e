import QuotaWarden.WatchCache.Loop

/-!
# The calls of the loop

A watcher lists and watches through an API. A stream is asked for with the arguments of the list
call, with a timeout, and with the version to watch from unless that is empty.

* `streamArguments` are the arguments of a stream, `WatchApi` answers the calls, and
  `Watcher.asking` is the watcher that makes them.
* `LoopCall` is what a watcher does to the API, to the cache and to the clock, with the answer.
  `LoopRecord` is a state with the calls so far, and `Watcher.noting` notes them.
-/

namespace QuotaWarden

abbrev CallArguments := List (String × Json)

/-- The arguments of a stream from a version. -/
def streamArguments (arguments : CallArguments) (timeout version : Json) : CallArguments :=
  let arguments := setField "timeout_seconds" timeout arguments
  if version.truthy then setField "resource_version" version arguments else arguments

/-- An API that lists and opens streams. -/
structure WatchApi (S τ : Type) where
  list : CallArguments → Act S ApiObject
  stream : CallArguments → S → WatchStream τ × S

/-- A stream that was opened: the time when it was asked for, and the cache and the stop signal that
it met. -/
structure Opening (τ : Type) where
  stream : WatchStream τ
  asked : τ
  cache : WatchCache
  stopped : Bool

/-- A call of the loop and what came of it. -/
inductive LoopCall (τ : Type) where
  | list (arguments : CallArguments) (response : Except Fault ApiObject)
  /-- The cache becomes this one. -/
  | write (c : WatchCache)
  | stream (arguments : CallArguments) (opening : Opening τ)
  /-- The stream is closed; the time after that. -/
  | close (now : τ)
  /-- The stop signal is waited for, so long at most. -/
  | wait (t : τ) (ending : WaitEnd)

namespace LoopCall

variable {τ : Type}

def listed? : LoopCall τ → Option CallArguments
  | list arguments _ => some arguments
  | _ => none

def streamed? : LoopCall τ → Option CallArguments
  | stream arguments _ => some arguments
  | _ => none

def waited? : LoopCall τ → Option τ
  | wait t _ => some t
  | _ => none

end LoopCall

/-- A state, and the calls so far in their order. -/
structure LoopRecord (S τ : Type) where
  state : S
  calls : List (LoopCall τ)

namespace LoopRecord

variable {S τ α : Type}

def change (f : S → S) (r : LoopRecord S τ) : LoopRecord S τ := { r with state := f r.state }

/-- Changes the state in a way that gives a value. -/
def update (f : S → α × S) (r : LoopRecord S τ) : α × LoopRecord S τ :=
  ((f r.state).1, { r with state := (f r.state).2 })

def note (c : LoopCall τ) (r : LoopRecord S τ) : LoopRecord S τ :=
  { r with calls := r.calls ++ [c] }

end LoopRecord

namespace Watcher

open LoopRecord

variable {S τ : Type}

/-- The watcher that asks an API. -/
def asking (w : Watcher S τ) (api : WatchApi S τ) (arguments : CallArguments) : Watcher S τ :=
  { w with
    list := api.list arguments
    openStream := fun version =>
      api.stream (streamArguments arguments w.settings.timeout version) }

/-- The watcher that asks an API, where all calls are noted. -/
def noting (w : Watcher S τ) (api : WatchApi S τ) (arguments : CallArguments) :
    Watcher (LoopRecord S τ) τ where
  cache r := w.cache r.state
  setCache c r := (r.change (w.setCache c)).note (.write c)
  handlers r := (w.handlers r.state).map fun handler c => update (handler c)
  log l := change (w.log l)
  settings := w.settings
  stopped r := w.stopped r.state
  stop := change w.stop
  now r := w.now r.state
  pass t := change (w.pass t)
  list r :=
    let (response, r) := update (api.list arguments) r
    (response, r.note (.list arguments response))
  openStream version r :=
    let asked := streamArguments arguments w.settings.timeout version
    let (stream, t) := api.stream asked r.state
    (stream, { r with state := t }.note
      (.stream asked ⟨stream, w.now r.state, w.cache t, w.stopped t⟩))
  closeStream r :=
    let r := r.change w.closeStream
    r.note (.close (w.now r.state))
  wait t r :=
    let (ending, r) := update (w.wait t) r
    (ending, r.note (.wait t ending))
  startResync := change w.startResync

end Watcher

end QuotaWarden
