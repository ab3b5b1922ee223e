import QuotaWarden.WatchCache.Calls

/-!
# A cache on a script

Surroundings for one cache in which everything that comes from outside is written down beforehand:
the outcomes of list calls, the streams, and when the stop signal is set.

* `ScriptState` is the state of such surroundings, with all that the cache did to them.
* `scripted` is the watcher that works on it, `scriptedApi` the API that it asks.
-/

namespace QuotaWarden

open TimeScale

/-- The state of a cache on a script. -/
structure ScriptState (τ : Type) where
  cache : WatchCache
  /-- The handlers by name; some fail after they have noted a change. -/
  handlers : List (String × Bool)
  now : τ
  stopped : Bool
  /-- The outcomes of the list calls to come; the last one stays. -/
  lists : List (Except Fault ApiObject)
  /-- The streams to come; without one the stop signal is set. -/
  streams : List (WatchStream τ)
  /-- The number of waits after which the stop signal is set. -/
  waitsLeft : Option Nat
  /-- The waits so far. -/
  waits : List τ
  listCalls : Nat
  /-- The versions from which streams were opened. -/
  opened : List Json
  closed : Nat
  log : List LogLine
  threads : List String
  /-- What each handler was told. -/
  told : List (String × Change)

namespace ScriptState

variable {τ : Type}

/-- A state in which nothing has been done and nothing is to come. -/
def start (cache : WatchCache) (handlers : List (String × Bool)) (now : τ) (stopped : Bool) :
    ScriptState τ :=
  ⟨cache, handlers, now, stopped, [], [], none, [], 0, [], 0, [], [], []⟩

/-- A handler that notes what it is told. -/
def handler (h : String × Bool) (c : Change) : Act (ScriptState τ) Unit := fun s =>
  (if h.2 then .error (.broken "handler failed") else .ok (),
    { s with told := s.told ++ [(h.1, c)] })

def nextList (s : ScriptState τ) : Except Fault ApiObject × ScriptState τ :=
  let s := { s with listCalls := s.listCalls + 1 }
  match s.lists with
  | [] => (.ok (.untyped (.obj [])), s)
  | [r] => (r, s)
  | r :: rest => (r, { s with lists := rest })

/-- The next stream; the last one sets the stop signal when it closes. -/
def nextStream [TimeScale τ] (version : Json) (s : ScriptState τ) :
    WatchStream τ × ScriptState τ :=
  let s := { s with opened := s.opened ++ [version] }
  match s.streams with
  | [] => (⟨[], 0, .closed, true⟩, s)
  | [stream] => ({ stream with stops := true }, { s with streams := [] })
  | stream :: rest => (stream, { s with streams := rest })

def wait [TimeScale τ] (t : τ) (s : ScriptState τ) : WaitEnd × ScriptState τ :=
  let stopped := s.stopped || s.waitsLeft.any (· ≤ 1)
  (if stopped then .stopped else .elapsed,
    { s with
      now := s.now + t
      waits := s.waits ++ [t]
      waitsLeft := s.waitsLeft.map (· - 1)
      stopped := stopped })

end ScriptState

/-- The watcher of a cache on a script. -/
def scripted [TimeScale τ] (settings : WatchSettings τ) : Watcher (ScriptState τ) τ where
  cache s := s.cache
  setCache c s := { s with cache := c }
  handlers s := s.handlers.map ScriptState.handler
  log l s := { s with log := s.log ++ [l] }
  settings := settings
  stopped s := s.stopped
  stop s := { s with stopped := true }
  now s := s.now
  pass t s := { s with now := s.now + t }
  list := ScriptState.nextList
  openStream := ScriptState.nextStream
  closeStream s := { s with closed := s.closed + 1 }
  wait := ScriptState.wait
  startResync s := { s with threads := s.threads ++ [s.cache.resyncName] }

/-- The API of a script: what it answers is written down, whatever the arguments. -/
def scriptedApi [TimeScale τ] : WatchApi (ScriptState τ) τ where
  list _ := ScriptState.nextList
  stream arguments := ScriptState.nextStream (Json.ofOption (field? "resource_version" arguments))

end QuotaWarden
