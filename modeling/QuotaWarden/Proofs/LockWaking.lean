import QuotaWarden.Proofs.LockExclusion
import Mathlib.Data.List.Induction

/-! # Nobody waits at a lock that is free

Clients only try again when a writer or the last reader lets the lock go. That is enough: between
two calls a client only waits while another one holds the lock, so that there is always somebody
whose release goes on with the others.

* `Run` are the runs of whole calls, from a lock without clients.
* `unfinished` counts the clients that have not let the lock go yet. A release takes one off
  (`Sound.release`), and none of the clients that try again after it.

`run_wakes` is the main result. -/

namespace QuotaWarden.Lock

variable {κ : Type} [DecidableEq κ]

/-! ### Runs -/

/-- A call of a client. -/
inductive Call (κ : Type) where
  | request (mode : LockMode) (c : κ)
  | release (c : κ)

/-- The lock after a call. -/
def Call.run : Call κ → Lock κ → Lock κ
  | request mode c, l => l.request mode c
  | release c, l => l.release c

/-- A client asks once, and it only releases the lock while it holds it. -/
def Call.Allowed : Call κ → Lock κ → Prop
  | request _ c, l => l.client? c = none
  | release c, l => l.phase? c = some .holding

/-- A run with its calls, the first one first, and the lock that it leads to. -/
inductive Run : List (Call κ) → Lock κ → Prop
  | start : Run [] free
  | call {calls : List (Call κ)} {l : Lock κ} (call : Call κ) :
      Run calls l → call.Allowed l → Run (calls ++ [call]) (call.run l)

variable {calls : List (Call κ)} {l l' : Lock κ} {c d : κ} {x : LockClient κ}
  {awake rest : List κ} {new : LockPhase}

theorem eq_free_of_run (h : Run [] l) : l = free := by
  generalize e : ([] : List (Call κ)) = all at h
  cases h with
  | start => rfl
  | call last _ _ => simp at e

theorem run_concat {call : Call κ} (h : Run (calls ++ [call]) l') :
    ∃ l, Run calls l ∧ call.Allowed l ∧ l' = call.run l := by
  generalize e : calls ++ [call] = all at h
  cases h with
  | start => simp at e
  | call last run allowed =>
      obtain ⟨rfl, hc⟩ := List.append_inj' e rfl
      obtain rfl := List.singleton_inj.mp hc
      exact ⟨_, run, allowed, rfl⟩

theorem Run.unique (h : Run calls l) (h' : Run calls l') : l = l' := by
  induction h generalizing l' with
  | start => exact (eq_free_of_run h').symm
  | call call _ _ ih =>
      obtain ⟨m, run, _, rfl⟩ := run_concat h'
      rw [ih run]

theorem Run.reached (h : Run calls l) : Reached [] l := by
  induction h with
  | start => exact .refl
  | call call _ allowed ih =>
      cases call with
      | request mode c => exact ih.trans (request_steps allowed mode)
      | release c => exact ih.trans (release_steps allowed)

/-! ### Who is done -/

/-- The number of clients that have not let the lock go yet. -/
def unfinished (l : Lock κ) : Nat := l.clients.countP fun x => x.phase ≠ .done

/-- From one lock to the next the same clients are there, and no client is done that was not. -/
structure Continues (l l' : Lock κ) : Prop where
  names : l'.clients.map (·.name) = l.clients.map (·.name)
  unfinished : l'.unfinished = l.unfinished
  done : ∀ d, l'.phase? d = some .done → l.phase? d = some .done

theorem Continues.refl (l : Lock κ) : Continues l l := ⟨rfl, rfl, fun _ => id⟩

theorem Continues.trans {l'' : Lock κ} (h : Continues l l') (h' : Continues l' l'') :
    Continues l l'' :=
  ⟨h'.names.trans h.names, h'.unfinished.trans h.unfinished, fun d hd => h.done d (h'.done d hd)⟩

theorem phase?_of_clients (h : l'.clients = l.clients) : l'.phase? d = l.phase? d := by
  unfold phase?
  rw [client?_of_clients h]

theorem phase?_setPhase (hc : l.client? c = some x) (d : κ) (phase : LockPhase) :
    (l.setPhase c phase).phase? d = if d = c then some phase else l.phase? d := by
  unfold phase?
  split
  · next hd =>
      rw [hd, client?_setPhase, hc]
      simp [(mem_of_client? hc).2]
  · next hd => rw [client?_setPhase_of_ne hd]

theorem continues_retry (h : l.Sound (c :: rest)) : Continues l (l.retry c) := by
  obtain ⟨mode, hc⟩ := h.waits List.mem_cons_self
  have goes_on : ∀ l' : Lock κ, l'.clients = (l.setPhase c .holding).clients → Continues l l' := by
    intro l' hl
    refine ⟨?_, ?_, fun d hd => ?_⟩
    · rw [hl, names_setPhase]
    · have := countP_moved h.named hc hl fun y => decide (y.phase ≠ .done)
      simpa [unfinished] using this
    · rw [phase?_of_clients hl, phase?_setPhase hc] at hd
      split at hd
      · cases hd
      · exact hd
  rcases retry_cases hc with ⟨_, _, e⟩ | ⟨_, _, _, e⟩ | ⟨_, _, _, e⟩
  · rw [e]
    exact ⟨rfl, rfl, fun _ => id⟩
  · exact goes_on _ (by rw [e])
  · exact goes_on _ (by rw [e])

theorem continues_tries (h : l.Sound awake) : Continues l (awake.foldl retry l) := by
  induction awake generalizing l with
  | nil => exact .refl l
  | cons c rest ih => exact (continues_retry h).trans (ih (retry_sound h))

theorem Sound.release (h : l.Sound []) (hc : l.phase? c = some .holding) :
    (l.release c).clients.map (·.name) = l.clients.map (·.name) ∧
      (l.release c).unfinished + 1 = l.unfinished ∧
      ∀ d, (l.release c).phase? d = some .done → d = c ∨ l.phase? d = some .done := by
  obtain ⟨mode, hx⟩ := phase?_eq_some.mp hc
  have gone := clients_letGo hc
  have tries := continues_tries (letGo_sound h hc)
  rw [release_eq hc]
  refine ⟨?_, ?_, fun d hd => ?_⟩
  · rw [tries.names, gone, names_setPhase]
  · rw [tries.unfinished]
    have := countP_moved h.named hx gone fun y => decide (y.phase ≠ .done)
    simpa [unfinished] using this
  · have := tries.done d hd
    rw [phase?_of_clients gone, phase?_setPhase hx] at this
    split at this
    · next hd => exact Or.inl hd
    · exact Or.inr this

theorem Run.released (h : Run calls l) (hd : l.phase? d = some .done) : .release d ∈ calls := by
  induction h with
  | start => cases hd
  | call call run allowed ih =>
      have sound := run.reached.sound
      refine List.mem_append.mpr ?_
      cases call with
      | request mode c =>
          have tried := continues_retry (enter_sound sound allowed mode)
          rw [Call.run, request_eq allowed] at hd
          obtain ⟨m, hx⟩ := phase?_eq_some.mp (tried.done d hd)
          rw [client?_enter] at hx
          refine Or.inl (ih (phase?_eq_some.mpr ⟨m, ?_⟩))
          split at hx
          · exact (Option.or_eq_some_iff.mp hx).resolve_right (by simp)
          · rwa [Option.or_none] at hx
      | release c =>
          rcases (sound.release allowed).2.2 d hd with rfl | hd
          · exact Or.inr List.mem_cons_self
          · exact Or.inl (ih hd)

/-! ### Nobody is forgotten -/

theorem exists_holder (hn : l.Named) (mode : LockMode) (h : 0 < l.count mode .holding) :
    ∃ c, l.phase? c = some .holding := by
  obtain ⟨x, hx, hp⟩ := List.countP_pos_iff.mp h
  have found := client?_of_mem hn hx
  exact ⟨x.name, by rw [phase?, found, Option.map_some, (of_decide_eq_true hp).2]⟩

omit [DecidableEq κ] in
/-- Between two calls a reader waits only where a writer holds or waits. -/
theorem Sound.reader_waits (h : l.Sound []) (hr : 0 < l.count .read .waiting) :
    0 < l.count .write .holding ∨ 0 < l.count .write .waiting := by
  obtain ⟨x, hx, hp⟩ := List.countP_pos_iff.mp hr
  obtain ⟨hmode, hphase⟩ := of_decide_eq_true hp
  have waits : x.name ∈ l.waiting := h.asking.mem_iff.mp (mem_asking.mpr ⟨x, hx, hphase, rfl⟩)
  rw [← h.writer, ← h.writersWaiting]
  rcases h.readerBlocked x hx waits hmode with hw | hw
  · exact Or.inl (by rw [hw]; decide)
  · exact Or.inr (Nat.pos_iff_ne_zero.mpr hw)

/-- Between two calls a writer waits only where a client holds the lock. -/
theorem Sound.writer_waits (h : l.Sound []) (hw : 0 < l.count .write .waiting) :
    ∃ c, l.phase? c = some .holding := by
  obtain ⟨x, hx, hp⟩ := List.countP_pos_iff.mp hw
  obtain ⟨hmode, hphase⟩ := of_decide_eq_true hp
  have waits : x.name ∈ l.waiting := h.asking.mem_iff.mp (mem_asking.mpr ⟨x, hx, hphase, rfl⟩)
  rcases h.writerBlocked x hx waits hmode with hl | hl
  · refine exists_holder h.named .write ?_
    rw [← h.writer, hl]
    decide
  · refine exists_holder h.named .read ?_
    rw [← h.readers]
    exact Nat.pos_iff_ne_zero.mpr hl

theorem Sound.waits_for_holder (h : l.Sound []) (hx : x ∈ l.clients) (hp : x.phase = .waiting) :
    ∃ c, l.phase? c = some .holding := by
  have counted : ∀ mode, x.mode = mode → 0 < l.count mode .waiting := fun mode hm =>
    List.countP_pos_iff.mpr ⟨x, hx, by simp [hm, hp]⟩
  cases hm : x.mode with
  | read =>
      rcases h.reader_waits (counted .read hm) with hw | hw
      · exact exists_holder h.named .write hw
      · exact h.writer_waits hw
  | write => exact h.writer_waits (counted .write hm)

/-- Where a client is not done, one holds the lock. -/
theorem Sound.unfinished_holder (h : l.Sound []) (hu : l.unfinished ≠ 0) :
    ∃ c, l.phase? c = some .holding := by
  obtain ⟨x, hx, hp⟩ := List.countP_pos_iff.mp (Nat.pos_iff_ne_zero.mpr hu)
  cases hphase : x.phase with
  | waiting => exact h.waits_for_holder hx hphase
  | holding => exact ⟨x.name, by rw [phase?, client?_of_mem h.named hx, Option.map_some, hphase]⟩
  | done => simp [hphase] at hp

/-- Each `release` takes `unfinished` down by one. -/
theorem Run.releases (h : Run calls l) {cs : List κ} (h' : Run (calls ++ cs.map .release) l') :
    l'.clients.map (·.name) = l.clients.map (·.name) ∧
      l'.unfinished + cs.length = l.unfinished := by
  induction cs using List.reverseRecOn generalizing l' with
  | nil =>
      rw [List.map_nil, List.append_nil] at h'
      rw [h.unique h']
      exact ⟨rfl, rfl⟩
  | append_singleton cs c ih =>
      rw [List.map_append, List.map_singleton, ← List.append_assoc] at h'
      obtain ⟨m, run, allowed, rfl⟩ := run_concat h'
      obtain ⟨names, counted⟩ := ih run
      obtain ⟨names', counted', _⟩ := run.reached.sound.release allowed
      refine ⟨names'.trans names, ?_⟩
      calc (m.release c).unfinished + (cs ++ [c]).length
          = (m.release c).unfinished + 1 + cs.length := by
            rw [List.length_append, List.length_singleton]
            omega
        _ = m.unfinished + cs.length := by rw [counted']
        _ = l.unfinished := counted

/-- **Nobody waits for a wake-up that does not come.** Between two calls, whatever led there:

* a waiting reader has a writer before it that holds or waits, a waiting writer waits for a client
  that holds, and so whoever waits does so while somebody holds the lock;
* if no clients come any more, then in whatever order those that hold the lock release it, each
  release takes one off the clients that are not done. While some are left, one of them can
  release. After as many releases as there were such clients, every client is done, and has
  released the lock while it held it. -/
theorem run_wakes (run : Run calls l) :
    (0 < l.count .read .waiting → 0 < l.count .write .holding ∨ 0 < l.count .write .waiting) ∧
      (0 < l.count .write .waiting → ∃ c, l.phase? c = some .holding) ∧
      (∀ x ∈ l.clients, x.phase = .waiting → ∃ c, l.phase? c = some .holding) ∧
      ∀ cs l', Run (calls ++ cs.map .release) l' →
        l'.unfinished + cs.length = l.unfinished ∧
        (cs.length < l.unfinished →
          ∃ c, Run (calls ++ (cs ++ [c]).map .release) (l'.release c)) ∧
        (cs.length = l.unfinished → ∀ x ∈ l.clients, l'.phase? x.name = some .done ∧
          .release x.name ∈ calls ++ cs.map .release) := by
  have sound := run.reached.sound
  refine ⟨sound.reader_waits, sound.writer_waits, fun x hx hp => sound.waits_for_holder hx hp, ?_⟩
  intro cs l' run'
  have sound' := run'.reached.sound
  obtain ⟨names, counted⟩ := run.releases run'
  refine ⟨counted, fun hlt => ?_, fun heq x hx => ?_⟩
  · obtain ⟨c, hc⟩ := sound'.unfinished_holder (by omega)
    refine ⟨c, ?_⟩
    rw [List.map_append, List.map_singleton, ← List.append_assoc]
    exact .call (.release c) run' hc
  · have kept : x.name ∈ l'.clients.map (·.name) := names ▸ List.mem_map_of_mem hx
    obtain ⟨y, hy, hname⟩ := List.mem_map.mp kept
    have none_left : l'.unfinished = 0 := by omega
    have done : y.phase = .done := by
      by_contra hne
      exact List.countP_eq_zero.mp none_left y hy (by simpa using hne)
    have phase : l'.phase? x.name = some .done := by
      rw [← hname, phase?, client?_of_mem sound'.named hy, Option.map_some, done]
    exact ⟨phase, run'.released phase⟩

/-- A reader holds the lock, and a writer and a reader wait. After three releases all of them are
done. -/
theorem run_wakes_reader_behind_writer :
    let calls : List (Call String) := [.request .read "r", .request .write "w", .request .read "s"]
    let l : Lock String := ((free.request .read "r").request .write "w").request .read "s"
    let l' := ((l.release "r").release "w").release "s"
    Run calls l ∧ l.unfinished = 3 ∧ (∃ c, l.phase? c = some .holding) ∧
      Run (calls ++ ["r", "w", "s"].map .release) l' ∧ l'.phase? "s" = some .done := by
  intro calls l l'
  have asked : Run calls l :=
    .call (.request .read "s")
      (.call (.request .write "w") (.call (.request .read "r") .start rfl) rfl) rfl
  have released : Run (calls ++ ["r", "w", "s"].map .release) l' :=
    .call (.release "s") (.call (.release "w") (.call (.release "r") asked rfl) rfl) rfl
  have three : l.unfinished = 3 := rfl
  obtain ⟨_, writer, _, releases⟩ := run_wakes asked
  obtain ⟨_, _, all⟩ := releases ["r", "w", "s"] l' released
  exact ⟨asked, three, writer (by decide), released,
    (all three.symm ⟨"s", .read, .waiting⟩ (by decide)).1⟩

end QuotaWarden.Lock
