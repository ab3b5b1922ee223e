import QuotaWarden.Proofs.CacheContents
import QuotaWarden.Proofs.LoopCalls

/-! # The turns of the loop

A turn is a list call, a stream if the response gives a version, and a wait unless the stream is
`Healthy` or still open. `Turn.calls` are its calls, with the writes to the cache that the response
and the stream come to.

* `Watcher.Orderly` says that only `setCache` changes the cache.
* `Watcher.Makes calls r r'` says that `r'` has `calls` beyond those of `r`, and the cache that they
  leave.
* `Turn.Lawful` says what a turn is, given the pause and the cache it begins with, and
  `Watcher.Takes` the same of turns in a row. `Watcher.run_takes` is the result about runs. -/

namespace QuotaWarden

open LoopRecord

variable {S τ : Type}

/-! ### Writes -/

namespace WatchCache

/-- The version to watch from after a list call. -/
def versionToWatch (response : Except Fault ApiObject) : Except Fault Json := do
  let o ← response
  let _ ← entries o
  o.listVersion

/-- The cache that is written to mark `c` as synced, if it is not. -/
def syncings (c : WatchCache) : List WatchCache :=
  if c.synced then [] else [{ c with synced := true }]

/-- The caches that are written for the outcome of a list call. -/
def relistings (response : Except Fault ApiObject) (c : WatchCache) : List WatchCache :=
  match listed response with
  | .error _ => []
  | .ok entries =>
    { c with index := Index.ofList entries } :: { c with index := Index.ofList entries }.syncings

/-- The cache after a change. -/
def taking (c : WatchCache) (d : Change) : WatchCache :=
  match c.apply d.kind d.object with
  | .ok (next, _) => next
  | .error _ => c

/-- The caches that are written for changes. -/
def takings (c : WatchCache) : List Change → List WatchCache
  | [] => []
  | d :: ds => c.taking d :: takings (c.taking d) ds

end WatchCache

/-- The cache after a call. -/
def LoopCall.cacheAfter (c : WatchCache) : LoopCall τ → WatchCache
  | write next => next
  | _ => c

/-- The cache after calls. -/
def cacheAfter (c : WatchCache) (calls : List (LoopCall τ)) : WatchCache :=
  calls.foldl LoopCall.cacheAfter c

theorem cacheAfter_append (c : WatchCache) (calls calls' : List (LoopCall τ)) :
    cacheAfter c (calls ++ calls') = cacheAfter (cacheAfter c calls) calls' := List.foldl_append

/-! ### Ends -/

/-- What following events gives that `halt` keeps from counting. -/
def FollowGives (halt : Option Halt) (e : Except Fault EventsEnd) : Prop :=
  match halt with
  | none => e = .ok .consumed
  | some .unreadable => ∃ f, e = .error f ∧ f.IsOwn
  | some _ => e = .ok .left

namespace Fate

/-- What a watch gives that ends so. -/
def Gives (fate : Fate) (e : Except Fault WatchEnd) : Prop :=
  match fate with
  | returned => e = .ok .ended
  | raised => ∃ f, e = .error f
  | stillOpen => e = .ok .stillOpen

/-- The time when a stream is closed that ends so. -/
def closed? (fate : Fate) (now : τ) : Option τ :=
  match fate with
  | stillOpen => none
  | _ => some now

theorem closed?_eq_none {fate : Fate} {now : τ} : fate.closed? now = none ↔ fate = stillOpen := by
  cases fate <;> simp [closed?]

end Fate

/-! ### Turns -/

/-- A stream with the arguments it was asked for with, and the time when it was closed. -/
structure Watching (τ : Type) where
  arguments : CallArguments
  opening : Opening τ
  closed? : Option τ

namespace Watching

def calls (s : Watching τ) : List (LoopCall τ) :=
  .stream s.arguments s.opening ::
    ((s.opening.cache.takings s.opening.contributed).map .write ++ s.closed?.toList.map .close)

/-- The stream has returned, half the timeout or more after it was asked for. -/
def Healthy [TimeScale τ] (timeout : Json) (s : Watching τ) : Prop :=
  s.opening.fate = .returned ∧ ∃ now least, s.closed? = some now ∧
    TimeScale.halved timeout = .ok least ∧ TimeScale.atMost least (now - s.opening.asked) = true

end Watching

/-- A list call, a stream and a wait. -/
structure Turn (τ : Type) where
  response : Except Fault ApiObject
  watching? : Option (Watching τ)
  wait? : Option (τ × WaitEnd)

namespace Turn

/-- The calls of a turn from the cache `c`. -/
def calls (arguments : CallArguments) (c : WatchCache) (t : Turn τ) : List (LoopCall τ) :=
  (.list arguments t.response :: (c.relistings t.response).map .write) ++
    t.watching?.elim [] Watching.calls ++ t.wait?.toList.map fun x => .wait x.1 x.2

/-- The stream stays open. -/
def IsOpen (t : Turn τ) : Prop := ∃ s, t.watching? = some s ∧ s.opening.fate = .stillOpen

def Healthy [TimeScale τ] (timeout : Json) (t : Turn τ) : Prop :=
  ∃ s, t.watching? = some s ∧ s.Healthy timeout

variable {response : Except Fault ApiObject} {s : Watching τ} {wait? : Option (τ × WaitEnd)}

@[simp] theorem isOpen_none : ¬ IsOpen ⟨response, none, wait?⟩ := nofun

@[simp] theorem isOpen_some :
    IsOpen ⟨response, some s, wait?⟩ ↔ s.opening.fate = .stillOpen := by
  simp [IsOpen]

@[simp] theorem healthy_none [TimeScale τ] (timeout : Json) :
    ¬ Healthy timeout ⟨response, none, wait?⟩ := nofun

@[simp] theorem healthy_some [TimeScale τ] (timeout : Json) :
    Healthy timeout ⟨response, some s, wait?⟩ ↔ s.Healthy timeout := by
  simp [Healthy]

/-- The stream stays open, or the wait does not end. -/
def Stuck (t : Turn τ) : Prop := t.IsOpen ∨ ∃ pause, t.wait? = some (pause, .never)

/-- A stream is opened exactly if the response gives a version, from that version and with the cache
that the response leaves, and is closed unless it stays open. -/
def Watches (arguments : CallArguments) (timeout : Json) (c : WatchCache) (t : Turn τ) : Prop :=
  match WatchCache.versionToWatch t.response with
  | .error _ => t.watching? = none
  | .ok version => ∃ s, t.watching? = some s ∧
      s.arguments = streamArguments arguments timeout version ∧
      s.opening.cache = cacheAfter c ((c.relistings t.response).map (LoopCall.write (τ := τ))) ∧
      (s.closed? = none ↔ s.opening.fate = .stillOpen)

theorem Watches.opening {arguments : CallArguments} {timeout : Json} {c : WatchCache} {t : Turn τ}
    (h : t.Watches arguments timeout c) (hs : t.watching? = some s) :
    s.opening.cache = cacheAfter c ((c.relistings t.response).map (LoopCall.write (τ := τ))) ∧
      (s.closed? = none ↔ s.opening.fate = .stillOpen) := by
  unfold Watches at h
  split at h
  · rw [h] at hs
    cases hs
  · obtain ⟨s', hs', -, hcache, hclosed⟩ := h
    obtain rfl : s = s' := Option.some.inj (hs.symm.trans hs')
    exact ⟨hcache, hclosed⟩

/-- A turn waits unless its stream is healthy or stays open, and waits for `pause`. -/
def Waits [TimeScale τ] (timeout : Json) (pause : τ) (t : Turn τ) : Prop :=
  (t.wait? = none ↔ t.IsOpen ∨ t.Healthy timeout) ∧ ∀ x, t.wait? = some x → x.1 = pause

end Turn

/-- The version that `relist` gives depends on the response alone. -/
theorem CacheHost.relist_version (h : CacheHost S) (response : Except Fault ApiObject) (s : S) :
    (h.relist response s).1 = WatchCache.versionToWatch response := by
  unfold relist WatchCache.versionToWatch
  cases response with
  | error f => rfl
  | ok o =>
      cases he : WatchCache.entries o with
      | error f => simp [WatchCache.replace_error he, he, bind, Except.bind]
      | ok es => simp [WatchCache.replace_eq he, he, bind, Except.bind]

namespace Watcher

/-- What a turn of `w` is that begins with `pause` and the cache `c`. -/
structure Lawful [TimeScale τ] (w : Watcher S τ) (arguments : CallArguments) (pause : τ)
    (c : WatchCache) (t : Turn τ) : Prop where
  watches : t.Watches arguments w.settings.timeout c
  waits : t.Waits w.settings.timeout pause

/-- The pause after a turn. -/
def nextPause [TimeScale τ] (w : Watcher S τ) (pause : τ) (t : Turn τ) : τ :=
  if t.wait?.isSome then w.nextBackoff pause else w.settings.backoffInitial

/-- Turns in a row, where none but the last is stuck. -/
def Takes [TimeScale τ] (w : Watcher S τ) (arguments : CallArguments) :
    τ → WatchCache → List (Turn τ) → Prop
  | _, _, [] => True
  | pause, c, t :: rest =>
    w.Lawful arguments pause c t ∧ (rest ≠ [] → ¬ t.Stuck) ∧
      Takes w arguments (w.nextPause pause t) (cacheAfter c (t.calls arguments c)) rest

/-- The calls of turns in a row. -/
def callsOf (arguments : CallArguments) : WatchCache → List (Turn τ) → List (LoopCall τ)
  | _, [] => []
  | c, t :: rest => t.calls arguments c ++
      callsOf arguments (cacheAfter c (t.calls arguments c)) rest

/-- Only `setCache` changes the cache, and neither it nor the log or the handlers set the stop
signal: one that is set while they run comes with the next event, the end of the stream, or the next
`list`, `stream` or `wait`. -/
structure Orderly (w : Watcher S τ) (api : WatchApi S τ) : Prop extends w.toCacheHost.Quiet where
  setCache_stopped : ∀ c s, w.stopped (w.setCache c s) = w.stopped s
  log_stopped : ∀ l s, w.stopped (w.log l s) = w.stopped s
  handlers_stopped : ∀ s, ∀ handler ∈ w.handlers s, ∀ c s',
    w.stopped (handler c s').2 = w.stopped s'
  stop : ∀ s, w.cache (w.stop s) = w.cache s
  pass : ∀ t s, w.cache (w.pass t s) = w.cache s
  wait : ∀ t s, w.cache (w.wait t s).2 = w.cache s
  closeStream : ∀ s, w.cache (w.closeStream s) = w.cache s
  startResync : ∀ s, w.cache (w.startResync s) = w.cache s
  list : ∀ arguments s, w.cache (api.list arguments s).2 = w.cache s
  stream : ∀ arguments s, w.cache (api.stream arguments s).2 = w.cache s

/-- `r'` has these calls beyond those of `r`, and the cache that they leave. -/
structure Makes (w : Watcher S τ) (made : List (LoopCall τ)) (r r' : LoopRecord S τ) : Prop where
  calls : r'.calls = r.calls ++ made
  cache : w.cache r'.state = cacheAfter (w.cache r.state) made

/-- No calls, the same cache and the same stop signal. -/
structure Still (w : Watcher S τ) (r r' : LoopRecord S τ) : Prop where
  calls : r'.calls = r.calls
  cache : w.cache r'.state = w.cache r.state
  stopped : w.stopped r'.state = w.stopped r.state

/-- A step from `r` that gives `e` is a lawful turn, and goes on unless the turn is stuck. -/
def Turns [TimeScale τ] (w : Watcher S τ) (arguments : CallArguments) (pause : τ)
    (r : LoopRecord S τ) (e : AfterRound τ × LoopRecord S τ) : Prop :=
  ∃ t, w.Lawful arguments pause (w.cache r.state) t ∧
    w.Makes (t.calls arguments (w.cache r.state)) r e.2 ∧
    (e.1 = .blocked ∧ t.Stuck ∨ e.1 = .again (w.nextPause pause t) ∧ ¬ t.Stuck)

/-- How so many rounds at most end in the state `s`, after these turns. -/
structure Ended (w : Watcher S τ) (limit : Nat) (turns : List (Turn τ)) (e : LoopEnd) (s : S) :
    Prop where
  stopped : e = .stopped → w.stopped s = true
  blocked : e = .blocked ↔ ∃ t, turns.getLast? = some t ∧ t.Stuck
  unfinished : e = .unfinished → turns.length = limit

variable {w : Watcher S τ} {api : WatchApi S τ} {r r' r'' : LoopRecord S τ}
  {made made' : List (LoopCall τ)}

theorem Ended.cons {limit : Nat} {turns : List (Turn τ)} {e : LoopEnd} {s : S}
    (h : w.Ended limit turns e s) {t : Turn τ} (ht : ¬ t.Stuck) :
    w.Ended (limit + 1) (t :: turns) e s := by
  refine ⟨h.stopped, ?_, fun he => congrArg (· + 1) (h.unfinished he)⟩
  rw [h.blocked]
  cases turns with
  | nil => simp [ht]
  | cons t' rest => rfl

theorem Still.refl (w : Watcher S τ) (r : LoopRecord S τ) : w.Still r r := ⟨rfl, rfl, rfl⟩

theorem Still.trans (h : w.Still r r') (h' : w.Still r' r'') : w.Still r r'' :=
  ⟨h'.calls.trans h.calls, h'.cache.trans h.cache, h'.stopped.trans h.stopped⟩

theorem Still.makes (h : w.Still r r') : w.Makes [] r r' :=
  ⟨h.calls.trans (List.append_nil _).symm, h.cache⟩

theorem Makes.trans (h : w.Makes made r r') (h' : w.Makes made' r' r'') :
    w.Makes (made ++ made') r r'' :=
  ⟨by rw [h'.calls, h.calls, List.append_assoc], by rw [h'.cache, h.cache, cacheAfter_append]⟩

theorem Makes.still (h : w.Makes made r r') (h' : w.Still r' r'') : w.Makes made r r'' := by
  have both := h.trans h'.makes
  rwa [List.append_nil] at both

/-! ### Changes of the cache -/

section

variable (ho : w.Orderly api) (arguments : CallArguments)

include ho

theorem log_still (l : LogLine) (r : LoopRecord S τ) :
    w.Still r ((w.noting api arguments).log l r) :=
  ⟨rfl, ho.log l r.state, ho.log_stopped l r.state⟩

theorem report_still (level : LogLevel) (text : String) (r : LoopRecord S τ) :
    w.Still r ((w.noting api arguments).report level text r) := log_still ho arguments _ r

theorem deliverAll_still (cs : List Change) (r : LoopRecord S τ) :
    w.Still r ((w.noting api arguments).deliverAll cs r) := by
  refine CacheHost.deliverAll_rel (R := w.Still) (Still.refl w) Still.trans
    (log_still ho arguments) ?_ cs r
  intro r noted hm c r'
  obtain ⟨handler, hh, rfl⟩ := List.mem_map.mp hm
  exact ⟨rfl, ho.handlers r.state handler hh c r'.state,
    ho.handlers_stopped r.state handler hh c r'.state⟩

theorem setCache_makes (c : WatchCache) (r : LoopRecord S τ) :
    w.Makes [.write c] r ((w.noting api arguments).setCache c r) :=
  ⟨rfl, ho.setCache c r.state⟩

theorem deliverAll_setCache_makes (c : WatchCache) (cs : List Change) (r : LoopRecord S τ) :
    w.Makes [.write c] r
      ((w.noting api arguments).deliverAll cs ((w.noting api arguments).setCache c r)) :=
  (setCache_makes ho arguments c r).still (deliverAll_still ho arguments cs _)

theorem markSynced_makes (n : Nat) (h : w.Makes made r r') :
    w.Makes (made ++ (cacheAfter (w.cache r.state) made).syncings.map .write) r
      ((w.noting api arguments).markSynced n r') := by
  have cache : (w.noting api arguments).cache r' = cacheAfter (w.cache r.state) made := h.cache
  unfold CacheHost.markSynced WatchCache.syncings
  rw [cache]
  split
  · exact h.trans (Still.refl w r').makes
  · exact h.trans ((setCache_makes ho arguments _ r').still (log_still ho arguments _ _))

theorem relist_makes (response : Except Fault ApiObject) (r : LoopRecord S τ) :
    w.Makes (((w.cache r.state).relistings response).map .write) r
      ((w.noting api arguments).relist response r).2 := by
  unfold WatchCache.relistings
  cases hl : WatchCache.listed response with
  | error f =>
      rw [CacheHost.relist_unlisted hl]
      exact (Still.refl w r).makes
  | ok entries =>
      rw [CacheHost.relist_listed hl]
      exact markSynced_makes ho arguments _ (deliverAll_setCache_makes ho arguments _ _ r)

/-- `apply` writes `taking d` if `d` is `applicable`, and else fails and writes nothing. -/
theorem apply_makes (d : Change) (r : LoopRecord S τ) :
    (d.applicable (w.cache r.state).index.objects = true ∧
        ((w.cache r.state).taking d).index.objects = d.onto (w.cache r.state).index.objects ∧
        ∃ r', (w.noting api arguments).apply d.kind d.object r = (.ok (), r') ∧
          w.Makes [.write ((w.cache r.state).taking d)] r r' ∧
          w.stopped r'.state = w.stopped r.state) ∨
      d.applicable (w.cache r.state).index.objects = false ∧
        ∃ f, (w.noting api arguments).apply d.kind d.object r = (.error f, r) ∧ f.IsOwn := by
  have ends := WatchCache.apply_ends (w.cache r.state) d.kind d.object
  rcases (w.cache r.state).takesIn d with ⟨applicable, i, applied, objects, _⟩ | ⟨not, f, failed⟩
  · have taken : (w.cache r.state).taking d = { w.cache r.state with index := i } := by
      rw [WatchCache.taking, applied]
    have done : (w.noting api arguments).apply d.kind d.object r = (.ok (), _) :=
      CacheHost.apply_applied applied
    rw [taken]
    refine Or.inl ⟨applicable, objects, _, done, deliverAll_setCache_makes ho arguments _ [d] r, ?_⟩
    exact (deliverAll_still ho arguments [d] _).stopped.trans (ho.setCache_stopped _ _)
  · rw [failed] at ends
    exact Or.inr ⟨not, f, CacheHost.apply_failed failed, ends⟩

theorem stop_makes (r : LoopRecord S τ) : w.Makes [] r ((w.noting api arguments).stop r) :=
  ⟨(List.append_nil _).symm, ho.stop r.state⟩

theorem reportErrorEvent_still (o : ApiObject) (r : LoopRecord S τ) :
    w.Still r ((w.noting api arguments).reportErrorEvent o r) := by
  unfold reportErrorEvent
  split
  · exact report_still ho arguments _ _ r
  · exact report_still ho arguments _ _ r

/-! ### Streams -/

/-- `follow` writes `takings` of what the events contribute, and ends as `halt?` says. -/
theorem follow_makes (events : List (WatchEvent × Bool)) (r : LoopRecord S τ) :
    FollowGives (halt? (w.stopped r.state) (w.cache r.state).index.objects events)
        ((w.noting api arguments).follow events r).1 ∧
      w.Makes (((w.cache r.state).takings (contributed (w.stopped r.state)
          (w.cache r.state).index.objects events)).map .write) r
        ((w.noting api arguments).follow events r).2 := by
  induction events generalizing r with
  | nil => exact ⟨rfl, (Still.refl w r).makes⟩
  | cons event rest ih =>
      obtain ⟨e, stops⟩ := event
      have stopped : (w.noting api arguments).stopped r = w.stopped r.state := rfl
      rw [follow, contributed, halt?, stopped]
      by_cases hstop : (stops || w.stopped r.state) = true
      · simp only [hstop, if_true, Bool.true_or]
        exact ⟨rfl, stop_makes ho arguments r⟩
      by_cases herror : e.type = "ERROR"
      · simp only [hstop, herror, decide_true, Bool.or_true, if_true]
        exact ⟨rfl, (reportErrorEvent_still ho arguments e.object r).makes⟩
      simp only [hstop, herror, decide_false, Bool.or_false, if_false, WatchEvent.change?]
      cases ChangeKind.ofName? e.type with
      | none => exact ih r
      | some kind =>
          rcases apply_makes ho arguments ⟨kind, e.object⟩ r with
            ⟨applicable, objects, r', applied, made, stopped⟩ | ⟨not, f, failed, own⟩
          · have cache : w.cache r'.state = (w.cache r.state).taking ⟨kind, e.object⟩ := made.cache
            have followed := ih r'
            rw [stopped, cache, objects] at followed
            simp only [Option.map_some, applicable, applied, if_true]
            exact ⟨followed.1, made.trans followed.2⟩
          · simp only [Option.map_some, not, failed]
            exact ⟨⟨f, rfl, own⟩, (Still.refl w r).makes⟩

theorem closeStream_makes (r : LoopRecord S τ) :
    w.Makes [.close (w.now (w.closeStream r.state))] r ((w.noting api arguments).closeStream r) :=
  ⟨rfl, ho.closeStream r.state⟩

theorem endOnFault_makes (f : Fault) (r : LoopRecord S τ) :
    (if f.isGone then Fate.returned else .raised).Gives
        ((w.noting api arguments).endOnFault f r).1 ∧
      w.Makes [.close (w.now ((w.noting api arguments).endOnFault f r).2.state)] r
        ((w.noting api arguments).endOnFault f r).2 := by
  unfold endOnFault
  split
  · exact ⟨rfl, (log_still ho arguments _ r).makes.trans (closeStream_makes ho arguments _)⟩
  · exact ⟨⟨f, rfl⟩, closeStream_makes ho arguments r⟩

theorem consume_makes (stream : WatchStream τ) (r : LoopRecord S τ) :
    let e := (w.noting api arguments).consume stream r
    let fate := stream.fate
      (halt? (w.stopped r.state) (w.cache r.state).index.objects stream.events)
    fate.Gives e.1 ∧
      w.Makes (((w.cache r.state).takings (contributed (w.stopped r.state)
          (w.cache r.state).index.objects stream.events)).map .write ++
            (fate.closed? (w.now e.2.state)).toList.map .close) r e.2 := by
  have followed := follow_makes ho arguments stream.events r
  unfold consume WatchStream.fate
  rcases hf : (w.noting api arguments).follow stream.events r with ⟨outcome, r'⟩
  rw [hf] at followed
  obtain ⟨gives, made⟩ := followed
  have passed : w.Makes [] r' ((w.noting api arguments).pass stream.lasts r') :=
    ⟨(List.append_nil _).symm, ho.pass stream.lasts r'.state⟩
  cases hh : halt? (w.stopped r.state) (w.cache r.state).index.objects stream.events with
  | none =>
      rw [hh] at gives
      obtain rfl : outcome = .ok .consumed := gives
      have taken := made.trans passed
      rw [List.append_nil] at taken
      cases stream.ending with
      | endless => exact ⟨rfl, made.trans passed⟩
      | failed f =>
          have ended :=
            endOnFault_makes ho arguments f ((w.noting api arguments).pass stream.lasts r')
          have closes : ∀ now : τ,
              (if f.isGone then Fate.returned else .raised).closed? now = some now := by
            intro now
            split <;> rfl
          refine ⟨ended.1, ?_⟩
          dsimp only
          rw [closes]
          exact taken.trans ended.2
      | closed =>
          cases stream.stops with
          | true => exact ⟨rfl, taken.trans ((stop_makes ho arguments _).trans
              (closeStream_makes ho arguments _))⟩
          | false => exact ⟨rfl, taken.trans (closeStream_makes ho arguments _)⟩
  | some halt =>
      rw [hh] at gives
      cases halt with
      | stopped =>
          obtain rfl : outcome = .ok .left := gives
          exact ⟨rfl, made.trans (closeStream_makes ho arguments r')⟩
      | errorEvent =>
          obtain rfl : outcome = .ok .left := gives
          exact ⟨rfl, made.trans (closeStream_makes ho arguments r')⟩
      | unreadable =>
          obtain ⟨f, rfl, own⟩ := gives
          have ended := endOnFault_makes ho arguments f r'
          rw [own.not_gone] at ended
          exact ⟨ended.1, made.trans ended.2⟩

theorem watch_makes (version : Json) (r : LoopRecord S τ) :
    let e := (w.noting api arguments).watch version r
    ∃ s : Watching τ, s.arguments = streamArguments arguments w.settings.timeout version ∧
      s.opening.cache = w.cache r.state ∧ s.opening.asked = w.now r.state ∧
      s.closed? = s.opening.fate.closed? (w.now e.2.state) ∧ s.opening.fate.Gives e.1 ∧
      w.Makes s.calls r e.2 := by
  let asked := streamArguments arguments w.settings.timeout version
  let opened := api.stream asked r.state
  let opening : Opening τ :=
    ⟨opened.1, w.now r.state, w.cache opened.2, w.stopped opened.2⟩
  have cache : w.cache opened.2 = w.cache r.state := ho.stream asked r.state
  have begun : w.Makes [.stream asked opening] r ⟨opened.2, r.calls ++ [.stream asked opening]⟩ :=
    ⟨rfl, cache⟩
  have consumed :=
    consume_makes ho arguments opened.1 ⟨opened.2, r.calls ++ [.stream asked opening]⟩
  exact ⟨⟨asked, opening, _⟩, rfl, cache, rfl, rfl, consumed.1, begun.trans consumed.2⟩

/-! ### Turns -/

theorem relistNow_makes (r : LoopRecord S τ) :
    let response := (api.list arguments r.state).1
    let e := (w.noting api arguments).relistNow r
    e.1 = WatchCache.versionToWatch response ∧
      w.Makes (.list arguments response :: ((w.cache r.state).relistings response).map .write) r
        e.2 := by
  intro response e
  have cache : w.cache (api.list arguments r.state).2 = w.cache r.state := ho.list arguments r.state
  have listed : w.Makes [.list arguments response] r ⟨(api.list arguments r.state).2,
    r.calls ++ [.list arguments response]⟩ := ⟨rfl, cache⟩
  have taken := relist_makes ho arguments response ⟨(api.list arguments r.state).2,
    r.calls ++ [.list arguments response]⟩
  rw [cache] at taken
  exact ⟨CacheHost.relist_version _ response _, listed.trans taken⟩

theorem reportFailure_still (f : Fault) (r : LoopRecord S τ) :
    w.Still r ((w.noting api arguments).reportFailure f r) := by
  unfold reportFailure
  split
  · exact report_still ho arguments _ _ r
  · exact report_still ho arguments _ _ r

variable [TimeScale τ]

theorem round_makes (r : LoopRecord S τ) :
    let e := (w.noting api arguments).round r
    ∃ t : Turn τ, t.wait? = none ∧ t.Watches arguments w.settings.timeout (w.cache r.state) ∧
      (e.1 = .stillOpen ↔ t.IsOpen) ∧ (e.1 = .healthy ↔ t.Healthy w.settings.timeout) ∧
      w.Makes (t.calls arguments (w.cache r.state)) r e.2 := by
  obtain ⟨version, listed⟩ := relistNow_makes ho arguments r
  generalize (api.list arguments r.state).1 = response at version listed
  unfold round
  rcases hl : (w.noting api arguments).relistNow r with ⟨outcome, r'⟩
  rw [hl] at version listed
  cases outcome with
  | error f =>
      refine ⟨⟨response, none, none⟩, rfl, ?_, by simp, by simp, ?_⟩
      · rw [Turn.Watches, ← version]
      · simpa [Turn.calls] using listed
  | ok v =>
      obtain ⟨s, hargs, cache, asked, closed, gives, watched⟩ := watch_makes ho arguments v r'
      dsimp only
      rcases hw : (w.noting api arguments).watch v r' with ⟨outcome, r''⟩
      rw [hw] at closed gives watched
      have watches : Turn.Watches arguments w.settings.timeout (w.cache r.state)
          ⟨response, some s, none⟩ := by
        rw [Turn.Watches, ← version]
        refine ⟨s, rfl, hargs, cache.trans listed.cache, ?_⟩
        rw [closed]
        exact Fate.closed?_eq_none
      have made :
          w.Makes (Turn.calls arguments (w.cache r.state) ⟨response, some s, none⟩) r r'' := by
        simpa [Turn.calls] using listed.trans watched
      refine ⟨⟨response, some s, none⟩, rfl, watches, ?_⟩
      rw [Turn.isOpen_some, Turn.healthy_some, Watching.Healthy]
      cases hfate : s.opening.fate with
      | stillOpen =>
          rw [hfate] at gives
          obtain rfl : outcome = .ok .stillOpen := gives
          exact ⟨by simp, by simp, made⟩
      | raised =>
          rw [hfate] at gives
          obtain ⟨f, rfl⟩ := gives
          exact ⟨by simp, by simp, made⟩
      | returned =>
          rw [hfate] at gives closed
          obtain rfl : outcome = .ok .ended := gives
          have settings : (w.noting api arguments).settings = w.settings := rfl
          have closes : s.closed? = some ((w.noting api arguments).now r'') := closed
          have asks : s.opening.asked = (w.noting api arguments).now r' := asked
          dsimp only
          rw [settings, closes, asks]
          cases hh : TimeScale.halved (τ := τ) w.settings.timeout with
          | error f => exact ⟨by simp, by simp, made⟩
          | ok least =>
              dsimp only
              split
              · next lasted => exact ⟨by simp, by simp [lasted], made⟩
              · next lasted => exact ⟨by simp, by simp [lasted], made⟩

theorem pause_makes (pause : τ) (r : LoopRecord S τ) :
    ∃ ending, w.Makes [.wait pause ending] r ((w.noting api arguments).pause pause r).2 ∧
      ((w.noting api arguments).pause pause r).1 =
        if ending = .never then .blocked else .again (w.nextBackoff pause) := by
  have made : w.Makes [.wait pause ((w.noting api arguments).wait pause r).1] r
      ((w.noting api arguments).wait pause r).2 := ⟨rfl, ho.wait pause r.state⟩
  unfold Watcher.pause
  rcases hw : (w.noting api arguments).wait pause r with ⟨ending, r'⟩
  rw [hw] at made
  cases ending with
  | never => exact ⟨_, made, rfl⟩
  | stopped => exact ⟨_, made, rfl⟩
  | elapsed => exact ⟨_, made, rfl⟩

/-- A turn that is neither open nor `Healthy` ends with `pause`. -/
theorem pause_turn (pause : τ) {t : Turn τ} (hw : t.wait? = none)
    (watches : t.Watches arguments w.settings.timeout (w.cache r.state))
    (hopen : ¬ t.IsOpen) (hhealthy : ¬ t.Healthy w.settings.timeout)
    (made : w.Makes (t.calls arguments (w.cache r.state)) r r') :
    w.Turns arguments pause r ((w.noting api arguments).pause pause r') := by
  obtain ⟨ending, waited, gives⟩ := pause_makes ho arguments pause r'
  have both := made.trans waited
  refine ⟨{ t with wait? := some (pause, ending) }, ⟨watches, ?_, ?_⟩, ?_, ?_⟩
  · simpa using ⟨hopen, hhealthy⟩
  · rintro _ ⟨⟩
    rfl
  · simpa [Turn.calls, hw] using both
  · rw [gives]
    by_cases hn : ending = .never
    · subst hn
      exact Or.inl ⟨rfl, Or.inr ⟨pause, rfl⟩⟩
    · refine Or.inr ⟨if_neg hn, ?_⟩
      rintro (h | ⟨_, h⟩)
      · exact hopen h
      · exact hn (congrArg Prod.snd (Option.some.inj h))

theorem step_turns (pause : τ) (r : LoopRecord S τ) :
    w.Turns arguments pause r ((w.noting api arguments).step pause r) := by
  obtain ⟨t, hw, watches, isOpen, healthy, made⟩ := round_makes ho arguments r
  unfold step
  rcases hr : (w.noting api arguments).round r with ⟨outcome, r'⟩
  rw [hr] at isOpen healthy made
  cases outcome with
  | stillOpen =>
      have hopen := isOpen.mp rfl
      exact ⟨t, ⟨watches, by simp [Turn.Waits, hw, hopen]⟩, made, Or.inl ⟨rfl, Or.inl hopen⟩⟩
  | healthy =>
      have hhealthy := healthy.mp rfl
      have hopen : ¬ t.IsOpen := fun h => nomatch isOpen.mpr h
      refine ⟨t, ⟨watches, by simp [Turn.Waits, hw, hhealthy]⟩, made, Or.inr ⟨?_, ?_⟩⟩
      · simp [nextPause, hw]
        rfl
      · simp [Turn.Stuck, hopen, hw]
  | early =>
      exact pause_turn ho arguments pause hw watches (fun h => nomatch isOpen.mpr h)
        (fun h => nomatch healthy.mpr h) made
  | failed f =>
      exact pause_turn ho arguments pause hw watches (fun h => nomatch isOpen.mpr h)
        (fun h => nomatch healthy.mpr h) (made.still (reportFailure_still ho arguments f r'))

/-! ### Runs -/

theorem rounds_takes (limit : Nat) (pause : τ) (r : LoopRecord S τ) :
    let e := (w.noting api arguments).rounds limit pause r
    ∃ turns, w.Takes arguments pause (w.cache r.state) turns ∧
      w.Makes (callsOf arguments (w.cache r.state) turns) r e.2 ∧
      w.Ended limit turns e.1 e.2.state := by
  induction limit generalizing pause r with
  | zero => exact ⟨[], trivial, (Still.refl w r).makes, ⟨nofun, by simp [rounds], fun _ => rfl⟩⟩
  | succ n ih =>
      unfold rounds
      split
      · next stopped =>
          have logged := report_still ho arguments .info "Watch cache stopped" r
          exact ⟨[], trivial, logged.makes, ⟨fun _ => logged.stopped.trans stopped, by simp, nofun⟩⟩
      · obtain ⟨t, lawful, made, goes⟩ := step_turns ho arguments pause r
        rcases hs : (w.noting api arguments).step pause r with ⟨next, r'⟩
        rw [hs] at made goes
        rcases goes with ⟨hnext, stuck⟩ | ⟨hnext, free⟩
        · obtain rfl : next = .blocked := hnext
          refine ⟨[t], ⟨lawful, fun h => absurd rfl h, trivial⟩, ?_, ⟨nofun, ?_, nofun⟩⟩
          · simpa [callsOf] using made
          · simp [stuck]
        · obtain rfl : next = .again (w.nextPause pause t) := hnext
          obtain ⟨rest, takes, makes, ended⟩ := ih (w.nextPause pause t) r'
          rw [made.cache] at takes makes
          refine ⟨t :: rest, ⟨lawful, fun _ => free, takes⟩, made.trans makes, ended.cons free⟩

/-- A run takes lawful turns from `backoffInitial` on. -/
theorem run_takes (limit : Nat) (r : LoopRecord S τ) :
    let e := (w.noting api arguments).run limit r
    ∃ turns, w.Takes arguments w.settings.backoffInitial (w.cache r.state) turns ∧
      w.Makes (callsOf arguments (w.cache r.state) turns) r e.2 ∧
      w.Ended limit turns e.1 e.2.state := by
  have announced := (report_still ho arguments .info "Starting watch cache" r).makes
  have resyncs : ∀ r', w.Makes [] r' ((w.noting api arguments).startResync r') := fun r' =>
    ⟨(List.append_nil _).symm, ho.startResync r'.state⟩
  have begun : ∀ r', w.Makes [] r r' →
      let e := (w.noting api arguments).rounds limit w.settings.backoffInitial r'
      ∃ turns, w.Takes arguments w.settings.backoffInitial (w.cache r.state) turns ∧
        w.Makes (callsOf arguments (w.cache r.state) turns) r e.2 ∧
        w.Ended limit turns e.1 e.2.state := by
    intro r' first
    obtain ⟨turns, takes, makes, ended⟩ :=
      rounds_takes ho arguments limit w.settings.backoffInitial r'
    rw [first.cache] at takes makes
    exact ⟨turns, takes, first.trans makes, ended⟩
  unfold run
  dsimp only
  split
  · exact begun _ (announced.trans (resyncs _))
  · exact begun _ announced

end

end Watcher

/-! ### A cache on a script -/

namespace ScriptState

theorem cache_nextList (s : ScriptState τ) : s.nextList.2.cache = s.cache := by
  unfold nextList
  rcases s.lists with _ | ⟨r, _ | ⟨r', rest⟩⟩ <;> rfl

theorem cache_nextStream [TimeScale τ] (version : Json) (s : ScriptState τ) :
    (s.nextStream version).2.cache = s.cache := by
  unfold nextStream
  rcases s.streams with _ | ⟨x, _ | ⟨x', rest⟩⟩ <;> rfl

end ScriptState

theorem scripted_orderly [TimeScale τ] (settings : WatchSettings τ) :
    (scripted settings).Orderly scriptedApi where
  toQuiet := scripted_quiet settings
  setCache_stopped _ _ := rfl
  log_stopped _ _ := rfl
  handlers_stopped s handler hh c s' := by
    obtain ⟨x, _, rfl⟩ := List.mem_map.mp hh
    rfl
  stop _ := rfl
  pass _ _ := rfl
  wait _ _ := rfl
  closeStream _ := rfl
  startResync _ := rfl
  list _ s := s.cache_nextList
  stream _ s := s.cache_nextStream _

end QuotaWarden
