import QuotaWarden.Proofs.CacheChanges
import QuotaWarden.WatchCache.Calls

/-! # Noting calls changes nothing

`Watcher.noting` goes through the states of `Watcher.asking`: with `forget` for the outcome without
the calls, `forget (w.noting api arguments).run limit r` is `(w.asking api arguments).run limit` of
the state of `r` (`Watcher.run_noting`). Each function of the loop has one such lemma. -/

namespace QuotaWarden

variable {S τ α : Type}

/-- An outcome without the calls that were noted. -/
def LoopRecord.forget (p : α × LoopRecord S τ) : α × S := (p.1, p.2.state)

open LoopRecord

namespace Watcher

variable (w : Watcher S τ) (api : WatchApi S τ) (arguments : CallArguments)

/-! ### The cache and its handlers -/

theorem tell_noting (c : Change) (r : LoopRecord S τ) (handler : Change → Act S Unit) :
    ((w.noting api arguments).tell c r fun c => update (handler c)).state =
      w.tell c r.state handler := by
  unfold CacheHost.tell update
  rcases hs : handler c r.state with ⟨outcome, t⟩
  dsimp only
  rw [hs]
  cases outcome <;> rfl

theorem deliver_noting (r : LoopRecord S τ) (c : Change) :
    ((w.noting api arguments).deliver r c).state = w.deliver r.state c := by
  have told : (w.handlers r.state).foldl (w.tell c) r.state = _ :=
    List.foldl_hom LoopRecord.state fun r handler => (w.tell_noting api arguments c r handler).symm
  unfold CacheHost.deliver
  rw [told]
  exact congrArg LoopRecord.state List.foldl_map

theorem deliverAll_noting (cs : List Change) (r : LoopRecord S τ) :
    ((w.noting api arguments).deliverAll cs r).state = w.deliverAll cs r.state :=
  (List.foldl_hom LoopRecord.state fun r c => (w.deliver_noting api arguments r c).symm).symm

theorem markSynced_noting (n : Nat) (r : LoopRecord S τ) :
    ((w.noting api arguments).markSynced n r).state = w.markSynced n r.state := by
  have cache : (w.noting api arguments).cache r = w.cache r.state := rfl
  unfold CacheHost.markSynced
  rw [cache]
  split <;> rfl

theorem relist_noting (response : Except Fault ApiObject) (r : LoopRecord S τ) :
    forget ((w.noting api arguments).relist response r) = w.relist response r.state := by
  have cache : (w.noting api arguments).cache r = w.cache r.state := rfl
  unfold CacheHost.relist
  cases response with
  | error f => rfl
  | ok o =>
      dsimp only
      rw [cache]
      cases (w.cache r.state).replace o with
      | error f => rfl
      | ok result =>
          refine Prod.ext rfl ?_
          change ((w.noting api arguments).markSynced _ _).state = _
          rw [markSynced_noting, deliverAll_noting]
          rfl

theorem apply_noting (kind : ChangeKind) (o : ApiObject) (r : LoopRecord S τ) :
    forget ((w.noting api arguments).apply kind o r) = w.apply kind o r.state := by
  have cache : (w.noting api arguments).cache r = w.cache r.state := rfl
  unfold CacheHost.apply
  rw [cache]
  cases (w.cache r.state).apply kind o with
  | error f => rfl
  | ok result => exact Prod.ext rfl (w.deliver_noting api arguments _ _)

/-! ### The loop -/

theorem reportErrorEvent_noting (o : ApiObject) (r : LoopRecord S τ) :
    ((w.noting api arguments).reportErrorEvent o r).state =
      (w.asking api arguments).reportErrorEvent o r.state := by
  unfold reportErrorEvent
  split <;> rfl

theorem follow_noting (events : List (WatchEvent × Bool)) (r : LoopRecord S τ) :
    forget ((w.noting api arguments).follow events r) =
      (w.asking api arguments).follow events r.state := by
  induction events generalizing r with
  | nil => rfl
  | cons event rest ih =>
      have stopped : (w.noting api arguments).stopped r =
        (w.asking api arguments).stopped r.state := rfl
      unfold follow
      rw [stopped]
      split
      · rfl
      · split
        · exact Prod.ext rfl (w.reportErrorEvent_noting api arguments _ r)
        · split
          · exact ih r
          · next kind _ =>
              have applied : forget ((w.noting api arguments).apply kind event.1.object r) =
                  (w.asking api arguments).apply kind event.1.object r.state :=
                w.apply_noting api arguments kind event.1.object r
              rcases ha : (w.noting api arguments).apply kind event.1.object r with ⟨outcome, r'⟩
              rw [ha] at applied
              rw [← applied]
              cases outcome with
              | error f => rfl
              | ok _ => exact ih r'

theorem endOnFault_noting (f : Fault) (r : LoopRecord S τ) :
    forget ((w.noting api arguments).endOnFault f r) =
      (w.asking api arguments).endOnFault f r.state := by
  unfold endOnFault
  split <;> rfl

theorem consume_noting (stream : WatchStream τ) (r : LoopRecord S τ) :
    forget ((w.noting api arguments).consume stream r) =
      (w.asking api arguments).consume stream r.state := by
  have followed := w.follow_noting api arguments stream.events r
  unfold consume
  rcases hf : (w.noting api arguments).follow stream.events r with ⟨outcome, r'⟩
  rw [hf] at followed
  rw [← followed]
  cases outcome with
  | error f => exact w.endOnFault_noting api arguments f r'
  | ok events =>
      cases events with
      | left => rfl
      | consumed =>
          dsimp only [forget]
          cases stream.ending with
          | endless => rfl
          | failed f => exact w.endOnFault_noting api arguments f _
          | closed =>
              cases stream.stops <;> rfl

theorem watch_noting (version : Json) (r : LoopRecord S τ) :
    forget ((w.noting api arguments).watch version r) =
      (w.asking api arguments).watch version r.state :=
  let opened := api.stream (streamArguments arguments w.settings.timeout version) r.state
  w.consume_noting api arguments opened.1 ⟨opened.2, _⟩

theorem relistNow_noting (r : LoopRecord S τ) :
    forget ((w.noting api arguments).relistNow r) = (w.asking api arguments).relistNow r.state :=
  w.relist_noting api arguments _ _

variable [TimeScale τ]

theorem round_noting (r : LoopRecord S τ) :
    forget ((w.noting api arguments).round r) = (w.asking api arguments).round r.state := by
  have listed := w.relistNow_noting api arguments r
  unfold round
  rcases hl : (w.noting api arguments).relistNow r with ⟨outcome, r'⟩
  rw [hl] at listed
  rw [← listed]
  cases outcome with
  | error f => rfl
  | ok version =>
      have watched := w.watch_noting api arguments version r'
      dsimp only [forget] at watched ⊢
      rcases hw : (w.noting api arguments).watch version r' with ⟨outcome, r''⟩
      rw [hw] at watched
      rw [← watched]
      cases outcome with
      | error f => rfl
      | ok ending =>
          cases ending with
          | stillOpen => rfl
          | ended =>
              have settings :
                  (w.noting api arguments).settings = (w.asking api arguments).settings := rfl
              dsimp only
              rw [settings]
              cases TimeScale.halved (τ := τ) (w.asking api arguments).settings.timeout with
              | error f => rfl
              | ok least => rfl

theorem pause_noting (backoff : τ) (r : LoopRecord S τ) :
    forget ((w.noting api arguments).pause backoff r) =
      (w.asking api arguments).pause backoff r.state := by
  have waited : forget ((w.noting api arguments).wait backoff r) =
      (w.asking api arguments).wait backoff r.state := rfl
  unfold pause
  rcases hw : (w.noting api arguments).wait backoff r with ⟨outcome, r'⟩
  rw [hw] at waited
  rw [← waited]
  cases outcome <;> rfl

theorem step_noting (backoff : τ) (r : LoopRecord S τ) :
    forget ((w.noting api arguments).step backoff r) =
      (w.asking api arguments).step backoff r.state := by
  have rounded := w.round_noting api arguments r
  unfold step
  rcases hr : (w.noting api arguments).round r with ⟨outcome, r'⟩
  rw [hr] at rounded
  rw [← rounded]
  cases outcome with
  | healthy => rfl
  | stillOpen => rfl
  | early => exact w.pause_noting api arguments backoff r'
  | failed f =>
      have reported : ((w.noting api arguments).reportFailure f r').state =
          (w.asking api arguments).reportFailure f r'.state := by
        unfold reportFailure
        cases f.refusal? <;> rfl
      have paused := w.pause_noting api arguments backoff
        ((w.noting api arguments).reportFailure f r')
      rw [reported] at paused
      exact paused

theorem rounds_noting (limit : Nat) (backoff : τ) (r : LoopRecord S τ) :
    forget ((w.noting api arguments).rounds limit backoff r) =
      (w.asking api arguments).rounds limit backoff r.state := by
  induction limit generalizing backoff r with
  | zero => rfl
  | succ n ih =>
      have stopped : (w.noting api arguments).stopped r =
        (w.asking api arguments).stopped r.state := rfl
      have stepped := w.step_noting api arguments backoff r
      unfold rounds
      rw [stopped]
      split
      · rfl
      · rcases hs : (w.noting api arguments).step backoff r with ⟨next, r'⟩
        rw [hs] at stepped
        rw [← stepped]
        cases next with
        | blocked => rfl
        | again backoff' => exact ih backoff' r'

/-- `forget` takes a run of `noting` to the run of `asking`. -/
theorem run_noting (limit : Nat) (r : LoopRecord S τ) :
    forget ((w.noting api arguments).run limit r) = (w.asking api arguments).run limit r.state := by
  have settings : (w.noting api arguments).settings = (w.asking api arguments).settings := rfl
  unfold run
  dsimp only
  rw [rounds_noting, settings]
  split <;> rfl

end Watcher

end QuotaWarden
