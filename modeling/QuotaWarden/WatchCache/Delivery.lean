import QuotaWarden.Act
import QuotaWarden.Journal
import QuotaWarden.WatchCache.Basic

/-!
# Telling others of changes

Handlers are told of every change, each handler in its turn. A handler that fails is reported in the
log and keeps nothing from the others.

* `CacheHost` says where a cache lives and who hears of its changes.
* `CacheHost.relist`, `CacheHost.apply` and `CacheHost.resync` change the cache and tell the
  handlers. -/

namespace QuotaWarden

/-- Where a cache lives, and who hears of its changes. -/
structure CacheHost (S : Type) where
  cache : S → WatchCache
  setCache : WatchCache → S → S
  handlers : S → List (Change → Act S Unit)
  log : LogLine → S → S

namespace CacheHost

variable {S : Type}

def report (h : CacheHost S) (level : LogLevel) (text : String) (s : S) : S :=
  h.log ⟨level, "[" ++ (h.cache s).kind ++ "] " ++ text⟩ s

def place (o : ApiObject) : String :=
  match o.metadata with
  | .ok m => m.ns.display ++ "/" ++ m.name.display
  | .error _ => "/"

/-- Tells one handler of a change. -/
def tell (h : CacheHost S) (c : Change) (s : S) (handler : Change → Act S Unit) : S :=
  match handler c s with
  | (.ok _, s) => s
  | (.error _, s) =>
    h.report .error ("Handler failed for " ++ c.kind.name ++ " " ++ place c.object) s

/-- Calls `tell` for every handler, in their order. -/
def deliver (h : CacheHost S) (s : S) (c : Change) : S := (h.handlers s).foldl (h.tell c) s

def deliverAll (h : CacheHost S) (cs : List Change) (s : S) : S := cs.foldl h.deliver s

/-- Sets `synced`, and says so the first time. -/
def markSynced (h : CacheHost S) (count : Nat) (s : S) : S :=
  if (h.cache s).synced then s
  else
    h.report .info ("Cache synced with " ++ toString count ++ " object(s)")
      (h.setCache { h.cache s with synced := true } s)

/-- Applies the outcome of a list call: the version of the collection to watch from. -/
def relist (h : CacheHost S) (response : Except Fault ApiObject) : Act S Json := fun s =>
  match response with
  | .error f => (.error f, s)
  | .ok o =>
    match (h.cache s).replace o with
    | .error f => (.error f, s)
    | .ok (c, changes) =>
      (o.listVersion, h.markSynced c.index.objects.length (h.deliverAll changes (h.setCache c s)))

/-- Applies one event. -/
def apply (h : CacheHost S) (kind : ChangeKind) (o : ApiObject) : Act S Unit := fun s =>
  match (h.cache s).apply kind o with
  | .error f => (.error f, s)
  | .ok (c, change) => (.ok (), h.deliver (h.setCache c s) change)

/-- Tells of `WatchCache.synthetic`. -/
def resync (h : CacheHost S) (s : S) : S := h.deliverAll (h.cache s).synthetic s

end CacheHost

end QuotaWarden
