import QuotaWarden.Dictionary
import QuotaWarden.Text.Blank
import QuotaWarden.TimeScale

/-!
# The work queue

A queue of keys for a pool of workers.

* **One worker per key.**  A key that is taken is being processed until it is released. A key that
  is added meanwhile is only marked (`dirty`) and queued when it is released.
* **No duplicates.**  A key that is marked is not queued again.
* **Delays.**  A key can be added for a later time. The delayed keys wait in the order of their
  times; of two times for one key the earlier one counts, and the entry of the other is passed over
  when its time comes (`readyAt` holds the time that counts).
* **Failures.**  A failed key is delayed by a base that doubles with each failure, up to a cap;
  forgetting the key resets its count.
* **Shutting down.**  A queue that shuts down takes in and hands out nothing more.

Main definitions: `add`, `take`, `release`, `addAfter`, `deliver`, `backoff`, `addRateLimited`,
`forget`, `shutDown`. -/

namespace QuotaWarden

open TimeScale

variable {κ τ : Type}

/-- A key that waits for its time; entries of one time wait in the order of their numbers. -/
structure DelayedKey (κ τ : Type) where
  ready : τ
  number : Nat
  key : κ
deriving Repr

/-- A queue of keys with rate-limited retries. -/
structure WorkQueue (κ τ : Type) where
  name : String
  baseDelay : τ
  maxDelay : τ
  /-- The keys to be handed out, in order. -/
  queue : List κ
  /-- The keys with work to be done that no worker has taken up yet. -/
  dirty : List κ
  /-- The keys that a worker holds. -/
  processing : List κ
  /-- How often each key has failed since it was last forgotten. -/
  failures : List (κ × Nat)
  /-- The delayed keys in the order of their times. -/
  waiting : List (DelayedKey κ τ)
  /-- The time that counts for a delayed key. -/
  readyAt : List (κ × τ)
  nextNumber : Nat
  /-- Whether the loop that delivers delayed keys runs. -/
  delivering : Bool
  shuttingDown : Bool

/-- What asking for a key gives. -/
inductive Taken (κ : Type) where
  | key (k : κ)
  | shutDown
  /-- There is nothing to take yet. -/
  | nothing
deriving DecidableEq, Repr

namespace WorkQueue

def empty (name : String) (baseDelay maxDelay : τ) : WorkQueue κ τ where
  name := name
  baseDelay := baseDelay
  maxDelay := maxDelay
  queue := []
  dirty := []
  processing := []
  failures := []
  waiting := []
  readyAt := []
  nextNumber := 0
  delivering := false
  shuttingDown := false

/-- Seconds by which a key is delayed after its first failure, in thousandths. -/
def standardBase [TimeScale τ] : τ := seconds 5 3

/-- The most seconds by which a failed key is delayed. -/
def standardCap [TimeScale τ] : τ := seconds 1000 0

/-- The number of doublings above which a delay grows no more. -/
def doublingLimit : Nat := 64

section

variable [BEq κ]

def insertKey (k : κ) (ks : List κ) : List κ := if ks.contains k then ks else ks ++ [k]

def removeKey (k : κ) (ks : List κ) : List κ := ks.filter fun j => !(j == k)

theorem contains_insertKey [EquivBEq κ] (j k : κ) (ks : List κ) :
    (insertKey k ks).contains j = (j == k || ks.contains j) := by
  unfold insertKey
  split
  · next h =>
    by_cases hj : (j == k) = true
    · rw [List.contains_congr hj, h, hj]
      rfl
    · simp [hj]
  · simp [Bool.or_comm]

theorem contains_removeKey [EquivBEq κ] (j k : κ) (ks : List κ) :
    (removeKey k ks).contains j = (!(j == k) && ks.contains j) := by
  unfold removeKey
  induction ks with
  | nil => simp
  | cons i r ih =>
    by_cases hi : (i == k) = true
    · rw [List.filter_cons_of_neg (by simp [hi]), ih, List.contains_cons]
      by_cases hj : (j == k) = true
      · simp [hj]
      · have : (j == i) = false := by rw [BEq.congr_right hi]; simpa using hj
        simp [this]
    · rw [List.filter_cons_of_pos (by simp [hi]), List.contains_cons, List.contains_cons, ih]
      by_cases hj : (j == i) = true
      · have : (j == k) = false := by rw [BEq.congr_left hj]; simpa using hi
        simp [hj, this]
      · simp [hj]

/-- Marks a key and queues it unless a worker holds it; a key that is marked already stays as it is.
-/
def add (k : κ) (q : WorkQueue κ τ) : WorkQueue κ τ :=
  if q.shuttingDown || q.dirty.contains k then q
  else if q.processing.contains k then { q with dirty := insertKey k q.dirty }
  else { q with dirty := insertKey k q.dirty, queue := q.queue ++ [k] }

/-- Hands out the first key. -/
def take (q : WorkQueue κ τ) : Taken κ × WorkQueue κ τ :=
  if q.shuttingDown then (.shutDown, q)
  else
    match q.queue with
    | [] => (.nothing, q)
    | k :: r =>
      (.key k,
        { q with queue := r, processing := insertKey k q.processing, dirty := removeKey k q.dirty })

/-- Ends the work on a key; a key that was marked meanwhile is queued. -/
def release (k : κ) (q : WorkQueue κ τ) : WorkQueue κ τ :=
  let q := { q with processing := removeKey k q.processing }
  if q.dirty.contains k && !q.shuttingDown then { q with queue := q.queue ++ [k] } else q

/-- Drops the failures of `k`. -/
def forget (k : κ) (q : WorkQueue κ τ) : WorkQueue κ τ :=
  { q with failures := Dictionary.erase k q.failures }

/-- How often a key has failed since it was last forgotten. -/
def failureCount (k : κ) (q : WorkQueue κ τ) : Nat := (Dictionary.get? k q.failures).getD 0

/-- The delay after a number of earlier failures. -/
def delayAfter [TimeScale τ] (q : WorkQueue κ τ) (failures : Nat) : τ :=
  less q.maxDelay (doubled q.baseDelay (min failures doublingLimit))

/-- Counts a failure of a key: the delay that it asks for. -/
def backoff [TimeScale τ] (k : κ) (q : WorkQueue κ τ) : τ × WorkQueue κ τ :=
  let n := q.failureCount k
  (q.delayAfter n, { q with failures := Dictionary.set k (n + 1) q.failures })

/-- Puts a delayed key behind those that are ready no later. -/
def insertDelayed [TimeScale τ] (d : DelayedKey κ τ) :
    List (DelayedKey κ τ) → List (DelayedKey κ τ)
  | [] => [d]
  | e :: r => if atMost e.ready d.ready then e :: insertDelayed d r else d :: e :: r

/-- Lets a key wait until a time. -/
def schedule [TimeScale τ] (k : κ) (ready : τ) (q : WorkQueue κ τ) : WorkQueue κ τ :=
  { q with
    waiting := insertDelayed ⟨ready, q.nextNumber, k⟩ q.waiting
    readyAt := Dictionary.set k ready q.readyAt
    nextNumber := q.nextNumber + 1
    delivering := true }

/-- Adds a key once a delay has passed; an earlier time for the key stays. -/
def addAfter [TimeScale τ] (now : τ) (k : κ) (delay : τ) (q : WorkQueue κ τ) : WorkQueue κ τ :=
  if q.shuttingDown then q
  else if atMost delay 0 then q.add k
  else
    match Dictionary.get? k q.readyAt with
    | some ready => if atMost ready (now + delay) then q else q.schedule k (now + delay)
    | none => q.schedule k (now + delay)

/-- Adds a failed key after the delay that it asks for. -/
def addRateLimited [TimeScale τ] (now : τ) (k : κ) (q : WorkQueue κ τ) : WorkQueue κ τ :=
  let (delay, q) := q.backoff k
  q.addAfter now k delay

/-- Goes through delayed keys whose time has come: those whose entry counts are due, each once. -/
def collectDue [TimeScale τ] :
    List (DelayedKey κ τ) → List (κ × τ) → List κ × List (κ × τ)
  | [], readyAt => ([], readyAt)
  | d :: r, readyAt =>
    match Dictionary.get? d.key readyAt with
    | some ready =>
      if same ready d.ready then
        let (due, rest) := collectDue r (Dictionary.erase d.key readyAt)
        (d.key :: due, rest)
      else collectDue r readyAt
    | none => collectDue r readyAt

/-- One pass of the loop that delivers delayed keys: adds the keys whose time has come. A queue that
shuts down delivers nothing. -/
def deliver [TimeScale τ] (now : τ) (q : WorkQueue κ τ) : WorkQueue κ τ :=
  if q.shuttingDown then q
  else
    let ready := q.waiting.takeWhile fun d => atMost d.ready now
    let (due, readyAt) := collectDue ready q.readyAt
    due.foldl (fun q k => q.add k)
      { q with waiting := q.waiting.dropWhile fun d => atMost d.ready now, readyAt := readyAt }

end

def shutdownNotice (q : WorkQueue κ τ) : String :=
  String.ofList (Text.trimEnd Text.isBlank ("Shutting down work queue " ++ q.name).toList)

def loopName (q : WorkQueue κ τ) : String :=
  (if q.name = "" then "workqueue" else q.name) ++ "-delay"

/-- Stops taking in and handing out keys. -/
def shutDown (q : WorkQueue κ τ) : WorkQueue κ τ := { q with shuttingDown := true }

end WorkQueue

end QuotaWarden
