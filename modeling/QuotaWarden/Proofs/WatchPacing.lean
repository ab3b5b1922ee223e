import QuotaWarden.Proofs.ExactTime
import QuotaWarden.Proofs.LoopTurns
import Mathlib.Data.List.DropRight

/-! # The pace of list and watch

`Turn.outward` are the calls of a turn other than writes. `Turn.Paced` says what these are after the
turns `earlier`, in exact time: which stream is asked for and with which arguments (`AsksFor`),
whether there is a wait, and for how long (`nthPause`).

`Watcher.run_paced` says that the calls of a run are those of paced turns, none of them stuck but
the last one of a run that is blocked, and that a run returns only with the stop signal set. -/

namespace QuotaWarden

open TimeScale

variable {S τ : Type}

/-! ### Arguments of streams -/

/-- `asked` are the `arguments` with the timeout and, unless it is empty, the version. -/
def AsksFor (arguments : CallArguments) (timeout version : Json) (asked : CallArguments) : Prop :=
  ∀ name, field? name asked =
    if name = "resource_version" ∧ version.truthy = true then some version
    else if name = "timeout_seconds" then some timeout
    else field? name arguments

theorem asksFor_streamArguments (arguments : CallArguments) (timeout version : Json) :
    AsksFor arguments timeout version (streamArguments arguments timeout version) := by
  intro name
  unfold streamArguments
  by_cases hv : version.truthy = true
  · by_cases hr : name = "resource_version"
    · simp [hv, hr, Dictionary.get?_set_self]
    · simp [hv, hr, Dictionary.get?_set]
  · simp [hv, Dictionary.get?_set]

/-! ### Pauses -/

/-- The pause after `n` others in a row. -/
def nthPause (initial cap : ℚ) (n : Nat) : ℚ :=
  if n = 0 then initial else min (initial * 2 ^ n) cap

theorem nthPause_succ {cap : ℚ} (hc : 0 ≤ cap) (initial : ℚ) (n : Nat) :
    nthPause initial cap (n + 1) = min (nthPause initial cap n * 2) cap := by
  cases n with
  | zero => simp [nthPause]
  | succ n =>
      have capped : cap ≤ cap * 2 := le_mul_of_one_le_right hc one_le_two
      rw [nthPause, if_neg (Nat.succ_ne_zero _), nthPause, if_neg (Nat.succ_ne_zero _),
        min_mul_of_nonneg _ _ zero_le_two, min_assoc, min_eq_right capped, pow_succ, mul_assoc]

/-! ### Turns -/

/-- A call is no write. -/
def LoopCall.isOutward : LoopCall τ → Bool
  | write _ => false
  | _ => true

/-- The calls of a stream other than writes. -/
def Watching.outward (s : Watching τ) : List (LoopCall τ) :=
  .stream s.arguments s.opening :: s.closed?.toList.map .close

namespace Turn

/-- The calls of a turn other than writes. -/
def outward (arguments : CallArguments) (t : Turn τ) : List (LoopCall τ) :=
  .list arguments t.response :: (t.watching?.elim [] Watching.outward ++
    t.wait?.toList.map fun x => .wait x.1 x.2)

/-- The stream has returned, and half the timeout or more has passed since it was asked for. -/
def Lasted (value : τ → ℚ) (timeout : ℚ) (t : Turn τ) : Prop :=
  ∃ s now, t.watching? = some s ∧ s.opening.fate = .returned ∧ s.closed? = some now ∧
    timeout / 2 ≤ value now - value s.opening.asked

/-- What a turn is after the turns `earlier`, where the timeout is the number `timeout`. -/
structure Paced (value : τ → ℚ) (settings : WatchSettings τ) (arguments : CallArguments)
    (timeout : ℚ) (earlier : List (Turn τ)) (t : Turn τ) : Prop where
  unopened : ∀ f, WatchCache.versionToWatch t.response = .error f → t.watching? = none
  /-- One stream from the version that was listed. -/
  opens : ∀ version, WatchCache.versionToWatch t.response = .ok version →
    ∃ s, t.watching? = some s ∧ AsksFor arguments settings.timeout version s.arguments ∧
      (s.closed? = none ↔ s.opening.fate = .stillOpen)
  waits : t.wait? = none ↔ t.IsOpen ∨ t.Lasted value timeout
  /-- The pause is the one after the waits in a row that come before it. -/
  pause : ∀ x, t.wait? = some x → value x.1 =
    nthPause (value settings.backoffInitial) (value settings.backoffMax)
      (earlier.rtakeWhile (·.wait?.isSome)).length

end Turn

/-! ### Calls other than writes -/

theorem filter_write (cs : List WatchCache) :
    (cs.map (LoopCall.write (τ := τ))).filter (·.isOutward) = [] := by
  induction cs with
  | nil => rfl
  | cons c rest ih => exact ih

theorem Watching.filter_calls (s : Watching τ) : s.calls.filter (·.isOutward) = s.outward := by
  have closes : (s.closed?.toList.map LoopCall.close).filter (·.isOutward) =
      s.closed?.toList.map .close := by cases s.closed? <;> rfl
  have stream := filter_write (τ := τ) (s.opening.cache.takings s.opening.contributed)
  rw [calls, List.filter_cons_of_pos rfl, List.filter_append, stream, closes]
  rfl

theorem Turn.filter_calls (arguments : CallArguments) (c : WatchCache) (t : Turn τ) :
    (t.calls arguments c).filter (·.isOutward) = t.outward arguments := by
  have watched : (t.watching?.elim [] Watching.calls).filter (·.isOutward) =
      t.watching?.elim [] Watching.outward := by
    cases t.watching? with
    | none => rfl
    | some s => exact s.filter_calls
  have waited : (t.wait?.toList.map fun x => LoopCall.wait x.1 x.2).filter (·.isOutward) =
      t.wait?.toList.map fun x => .wait x.1 x.2 := by cases t.wait? <;> rfl
  rw [calls, List.filter_append, List.filter_append, List.filter_cons_of_pos rfl, filter_write,
    watched, waited]
  rfl

/-! ### Runs -/

namespace Watcher

variable {w : Watcher S τ} {arguments : CallArguments}

theorem filter_callsOf (arguments : CallArguments) (c : WatchCache) (turns : List (Turn τ)) :
    (callsOf arguments c turns).filter (·.isOutward) = turns.flatMap (Turn.outward arguments) := by
  induction turns generalizing c with
  | nil => rfl
  | cons t rest ih => rw [callsOf, List.filter_append, Turn.filter_calls, ih, List.flatMap_cons]

variable [TimeScale τ] {value : τ → ℚ}

theorem value_nextBackoff (exact : Exact value) (w : Watcher S τ) (pause : τ) :
    value (w.nextBackoff pause) = min (value pause * 2) (value w.settings.backoffMax) := by
  rw [nextBackoff, exact.less, exact.doubled, pow_one]

theorem healthy_iff_lasted (clock : ExactClock value) {timeout : Json} {q : ℚ}
    (hq : timeout.rational? = some q) (t : Turn τ) : t.Healthy timeout ↔ t.Lasted value q := by
  obtain ⟨half, hhalf, hvalue⟩ := clock.halved timeout q hq
  have late : ∀ now asked, atMost half (now - asked) = true ↔ q / 2 ≤ value now - value asked := by
    intro now asked
    rw [clock.atMost, clock.sub, hvalue]
  constructor
  · rintro ⟨s, hs, hfate, now, least, hclosed, hleast, hlate⟩
    obtain rfl : half = least := Except.ok.inj (hhalf.symm.trans hleast)
    exact ⟨s, now, hs, hfate, hclosed, (late _ _).mp hlate⟩
  · rintro ⟨s, now, hs, hfate, hclosed, hlate⟩
    exact ⟨s, hs, hfate, now, half, hclosed, hhalf, (late _ _).mpr hlate⟩

/-- The pause after turns, as a number. -/
def pauseAfter (w : Watcher S τ) (value : τ → ℚ) (earlier : List (Turn τ)) : ℚ :=
  nthPause (value w.settings.backoffInitial) (value w.settings.backoffMax)
    (earlier.rtakeWhile (·.wait?.isSome)).length

theorem value_nextPause (exact : Exact value) (hmax : 0 ≤ value w.settings.backoffMax)
    {pause : τ} {earlier : List (Turn τ)} (hp : value pause = w.pauseAfter value earlier)
    (t : Turn τ) : value (w.nextPause pause t) = w.pauseAfter value (earlier ++ [t]) := by
  unfold nextPause pauseAfter
  rw [List.rtakeWhile_concat]
  split
  · rw [List.length_append, List.length_singleton, nthPause_succ hmax, value_nextBackoff exact, hp]
    rfl
  · rfl

theorem Lawful.paced (clock : ExactClock value) {q : ℚ}
    (hq : w.settings.timeout.rational? = some q) {pause : τ} {earlier : List (Turn τ)}
    (hp : value pause = w.pauseAfter value earlier) {c : WatchCache} {t : Turn τ}
    (h : w.Lawful arguments pause c t) : t.Paced value w.settings arguments q earlier := by
  obtain ⟨watches, none, some⟩ := h
  refine ⟨fun f hv => ?_, fun version hv => ?_,
    none.trans (or_congr_right (healthy_iff_lasted clock hq t)), fun x hx => ?_⟩
  · simpa only [Turn.Watches, hv] using watches
  · simp only [Turn.Watches, hv] at watches
    obtain ⟨s, hs, hargs, -, hclosed⟩ := watches
    exact ⟨s, hs, hargs ▸ asksFor_streamArguments _ _ _, hclosed⟩
  · rw [some x hx]
    exact hp

theorem Takes.paced (clock : ExactClock value) {q : ℚ}
    (hq : w.settings.timeout.rational? = some q) (hmax : 0 ≤ value w.settings.backoffMax)
    {pause : τ} {earlier turns : List (Turn τ)} (hp : value pause = w.pauseAfter value earlier)
    {c : WatchCache} (h : w.Takes arguments pause c turns) {before later : List (Turn τ)}
    {t : Turn τ} (ht : turns = before ++ t :: later) :
    t.Paced value w.settings arguments q (earlier ++ before) ∧ (later ≠ [] → ¬ t.Stuck) := by
  induction turns generalizing pause earlier c before with
  | nil => cases before <;> cases ht
  | cons first rest ih =>
      obtain ⟨lawful, free, takes⟩ := h
      cases before with
      | nil =>
          obtain ⟨rfl, rfl⟩ := List.cons.inj ht
          rw [List.append_nil]
          exact ⟨lawful.paced clock hq hp, free⟩
      | cons second before =>
          obtain ⟨rfl, rfl⟩ := List.cons.inj ht
          have paced := ih (value_nextPause clock.toExact hmax hp first) takes rfl
          rwa [List.append_assoc] at paced

/-- **Lists and watches are paced.** Whatever lists and streams come to, the calls of a run are
those of paced turns. A run that returns does so with the stop signal set; else it is blocked, where
its last turn is stuck and no other is, or has taken as many turns as allowed. -/
theorem run_paced (clock : ExactClock value) {api : WatchApi S τ} (ho : w.Orderly api) {timeout : ℚ}
    (ht : w.settings.timeout.rational? = some timeout) (hmax : 0 ≤ value w.settings.backoffMax)
    (arguments : CallArguments) (limit : Nat) (s : S) :
    let ran := (w.noting api arguments).run limit ⟨s, []⟩
    (ran.1, ran.2.state) = (w.asking api arguments).run limit s ∧
      (∀ r, ((w.noting api arguments).relistNow r).1 =
        WatchCache.versionToWatch (api.list arguments r.state).1) ∧
      ∃ turns : List (Turn τ),
        ran.2.calls.filter (·.isOutward) = turns.flatMap (Turn.outward arguments) ∧
        (∀ earlier t later, turns = earlier ++ t :: later →
          t.Paced value w.settings arguments timeout earlier ∧ (later ≠ [] → ¬ t.Stuck)) ∧
        (ran.1 = .stopped → w.stopped ran.2.state = true) ∧
        (ran.1 = .blocked ↔ ∃ t, turns.getLast? = some t ∧ t.Stuck) ∧
        (ran.1 = .unfinished → turns.length = limit) := by
  intro ran
  obtain ⟨turns, takes, makes, ended⟩ := run_takes ho arguments limit ⟨s, []⟩
  have first : value w.settings.backoffInitial = w.pauseAfter value [] := rfl
  refine ⟨w.run_noting api arguments limit ⟨s, []⟩, fun r => (relistNow_makes ho arguments r).1,
    turns, ?_, fun _ _ _ h => takes.paced clock ht hmax first h, ended.stopped, ended.blocked,
    ended.unfinished⟩
  rw [makes.calls]
  exact filter_callsOf arguments _ turns

/-- A script: the first list call is refused; of the streams, the first one lasts for 6 and the
others for 1. The third wait is stopped. -/
def refusedFirst : ScriptState ℚ :=
  { ScriptState.start (.empty "pods") [] 0 false with
    lists := [.error (.refused ⟨.int 500, .null⟩), .ok (.list [] (some "7")), .ok (.list [] none)]
    streams := [⟨[], 6, .closed, false⟩, ⟨[], 1, .closed, false⟩, ⟨[], 1, .closed, false⟩,
      ⟨[], 1, .closed, false⟩]
    waitsLeft := some 3 }

/-- With a timeout of 10 there is a wait of 1 after the refusal and none after the first stream, and
the waits after the others are 1 and 2. Only the first list names a version. -/
theorem run_paced_refused_first :
    let w := scripted (⟨0, .int 10, 1, 3⟩ : WatchSettings ℚ)
    let arguments := [("namespace", .str "team-a")]
    let ran := (w.noting scriptedApi arguments).run 9 ⟨refusedFirst, []⟩
    w.Orderly scriptedApi ∧ w.settings.timeout.rational? = some 10 ∧ 0 ≤ w.settings.backoffMax ∧
      ran.1 = .stopped ∧ w.stopped ran.2.state = true ∧
      ran.2.calls.filterMap (·.waited?) = [1, 1, 2] ∧
      ran.2.calls.filterMap (·.streamed?.map (·.map fun x => (x.1, x.2.display))) =
        [[("namespace", "team-a"), ("timeout_seconds", "10"), ("resource_version", "7")],
          [("namespace", "team-a"), ("timeout_seconds", "10")],
          [("namespace", "team-a"), ("timeout_seconds", "10")]] ∧
      ∃ turns : List (Turn ℚ),
        ran.2.calls.filter (·.isOutward) = turns.flatMap (Turn.outward arguments) ∧
        ∀ earlier t later, turns = earlier ++ t :: later →
          t.Paced (fun x => x) w.settings arguments 10 earlier := by
  intro w arguments
  have orderly : w.Orderly scriptedApi := scripted_orderly _
  have timeout : w.settings.timeout.rational? = some 10 := by decide +kernel
  have capped : 0 ≤ w.settings.backoffMax := by decide +kernel
  have paced := run_paced exactTime_clock orderly timeout capped arguments 9 refusedFirst
  have ended : ((w.noting scriptedApi arguments).run 9 ⟨refusedFirst, []⟩).1 = .stopped := by
    decide +kernel
  generalize hran : (w.noting scriptedApi arguments).run 9 ⟨refusedFirst, []⟩ = ran at *
  obtain ⟨_, _, turns, outward, each, stopped, _⟩ := paced
  have turn := fun earlier t later h => (each earlier t later h).1
  have stops := stopped ended
  subst hran
  exact ⟨orderly, timeout, capped, ended, stops, by decide +kernel, by decide +kernel, turns,
    outward, turn⟩

end Watcher

end QuotaWarden
