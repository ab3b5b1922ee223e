/-!
# A lock for many readers or one writer

Readers share the lock, a writer has it alone, and a waiting writer holds new readers back.

* The lock itself is three counters: `readers`, `writer`, `writersWaiting`.
* `Lock.request` and `Lock.release` are what clients do. A client that cannot go on waits. When the
  lock is let go by a writer, or by the last reader, all waiting clients try again, one at a time in
  the order in which they began to wait (`Lock.retryAll`); one that still cannot go on waits again
  at the end.
* `Lock.phase?` is the view: what each client is doing.
-/

namespace QuotaWarden

inductive LockMode where
  | read
  | write
deriving DecidableEq, Repr

/-- What a client is at. -/
inductive LockPhase where
  | waiting
  | holding
  | done
deriving DecidableEq, Repr

structure LockClient (κ : Type) where
  name : κ
  mode : LockMode
  phase : LockPhase
deriving DecidableEq, Repr

/-- The counters of the lock, and its clients. -/
structure Lock (κ : Type) where
  readers : Nat
  writer : Bool
  writersWaiting : Nat
  /-- All clients so far, in the order in which they came. -/
  clients : List (LockClient κ)
  /-- The clients that wait, in the order in which they began to. -/
  waiting : List κ
deriving Repr

namespace Lock

variable {κ : Type} [DecidableEq κ]

def free : Lock κ := ⟨0, false, 0, [], []⟩

def client? (c : κ) (l : Lock κ) : Option (LockClient κ) := l.clients.find? fun x => x.name = c

def phase? (c : κ) (l : Lock κ) : Option LockPhase := (l.client? c).map (·.phase)

def setPhase (c : κ) (phase : LockPhase) (l : Lock κ) : Lock κ :=
  { l with clients := l.clients.map fun x => if x.name = c then { x with phase } else x }

/-- Lets a client wait behind the others. -/
def wait (c : κ) (l : Lock κ) : Lock κ := { l with waiting := l.waiting ++ [c] }

/-- A reader goes on if no writer holds the lock or waits for it. -/
def tryRead (c : κ) (l : Lock κ) : Lock κ :=
  if l.writer || l.writersWaiting ≠ 0 then l.wait c
  else { l.setPhase c .holding with readers := l.readers + 1 }

/-- A writer that waits goes on if nobody holds the lock. -/
def tryWrite (c : κ) (l : Lock κ) : Lock κ :=
  if l.writer || l.readers ≠ 0 then l.wait c
  else { l.setPhase c .holding with writersWaiting := l.writersWaiting - 1, writer := true }

/-- A client tries to go on. -/
def attempt (mode : LockMode) (c : κ) (l : Lock κ) : Lock κ :=
  match mode with
  | .read => l.tryRead c
  | .write => l.tryWrite c

/-- A new client asks for the lock; a writer is counted as waiting first. -/
def request (mode : LockMode) (c : κ) (l : Lock κ) : Lock κ :=
  let l := { l with clients := l.clients ++ [LockClient.mk c mode .waiting] }
  match mode with
  | .read => l.tryRead c
  | .write => { l with writersWaiting := l.writersWaiting + 1 }.tryWrite c

/-- A waiting client tries again. -/
def retry (l : Lock κ) (c : κ) : Lock κ :=
  match l.client? c with
  | some x => l.attempt x.mode c
  | none => l

/-- All waiting clients try again, one at a time. -/
def retryAll (l : Lock κ) : Lock κ := l.waiting.foldl retry { l with waiting := [] }

/-- A client that holds the lock lets it go. -/
def release (c : κ) (l : Lock κ) : Lock κ :=
  match l.client? c with
  | some ⟨_, .read, .holding⟩ =>
    let l := { l.setPhase c .done with readers := l.readers - 1 }
    if l.readers = 0 then l.retryAll else l
  | some ⟨_, .write, .holding⟩ => { l.setPhase c .done with writer := false }.retryAll
  | _ => l

end Lock

end QuotaWarden
