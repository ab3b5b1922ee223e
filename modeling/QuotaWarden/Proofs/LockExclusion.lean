import QuotaWarden.ReadersWriterLock
import Mathlib.Data.List.Nodup
import Mathlib.Data.List.Perm.Basic
import Mathlib.Logic.Relation

/-! # The lock excludes

Any number of clients ask for the lock, each of them once, and those that hold it let it go. Every
call is made of small steps. A client comes in, or one lets go; then the clients that are awake try
to go on, one at a time and in the order in which they began to wait.

* `Step` is one step of a lock together with the clients that have yet to try, and `Reached` holds
  of all that steps lead to, also between two tries. The calls of the lock are made of steps
  (`request_steps`, `release_steps`).
* `Sound` ties the counters and the waiting clients to the phases of all clients; each step keeps it
  (`enter_sound`, `letGo_sound`, `retry_sound`).

`reached_excludes` collects what follows for the clients. -/

namespace QuotaWarden.Lock

variable {κ : Type} [DecidableEq κ]

/-! ### Steps -/

/-- The number of clients of a mode that are in a phase. -/
def count (mode : LockMode) (phase : LockPhase) (l : Lock κ) : Nat :=
  l.clients.countP fun x => x.mode = mode ∧ x.phase = phase

/-- The names of the clients that wait. -/
def asking (l : Lock κ) : List κ := (l.clients.filter fun x => x.phase = .waiting).map (·.name)

/-- A client comes in. -/
def enter (mode : LockMode) (c : κ) (l : Lock κ) : Lock κ :=
  { l with
    clients := l.clients ++ [⟨c, mode, .waiting⟩]
    writersWaiting := l.writersWaiting + if mode = .write then 1 else 0 }

/-- The lock when a client has let it go and nobody has tried again. -/
def letGo (c : κ) (l : Lock κ) : Lock κ :=
  match l.client? c with
  | some ⟨_, .read, .holding⟩ =>
    { l.setPhase c .done with
      readers := l.readers - 1
      waiting := if l.readers - 1 = 0 then [] else l.waiting }
  | some ⟨_, .write, .holding⟩ => { l.setPhase c .done with writer := false, waiting := [] }
  | _ => l

/-- The clients that try again when a client has let the lock go. -/
def woken (c : κ) (l : Lock κ) : List κ :=
  match l.client? c with
  | some ⟨_, .read, .holding⟩ => if l.readers - 1 = 0 then l.waiting else []
  | some ⟨_, .write, .holding⟩ => l.waiting
  | _ => []

/-- One step of a lock with the clients that have yet to try. Nobody comes in or lets go before all
of them have tried. -/
inductive Step : List κ × Lock κ → List κ × Lock κ → Prop
  | enter {l : Lock κ} (mode : LockMode) (c : κ) :
      l.client? c = none → Step ([], l) ([c], l.enter mode c)
  | letGo {l : Lock κ} (c : κ) :
      l.phase? c = some .holding → Step ([], l) (l.woken c, l.letGo c)
  | retry {l : Lock κ} (c : κ) (rest : List κ) : Step (c :: rest, l) (rest, l.retry c)

/-- What is reached by steps, from a lock without clients. -/
def Reached (awake : List κ) (l : Lock κ) : Prop := Relation.ReflTransGen Step ([], free) (awake, l)

/-! ### Clients -/

section clients

variable {l : Lock κ} {c d : κ} {x : LockClient κ}

/-- No two clients have one name. -/
def Named (l : Lock κ) : Prop := (l.clients.map (·.name)).Nodup

theorem mem_of_client? (h : l.client? c = some x) : x ∈ l.clients ∧ x.name = c :=
  ⟨List.mem_of_find?_eq_some h, by simpa using List.find?_some h⟩

theorem client?_eq_none : l.client? c = none ↔ c ∉ l.clients.map (·.name) := by
  simp [client?, List.find?_eq_none]

theorem client?_of_mem (hn : l.Named) (hx : x ∈ l.clients) : l.client? x.name = some x := by
  cases h : l.client? x.name with
  | none => exact absurd (List.mem_map_of_mem hx) (client?_eq_none.mp h)
  | some y =>
      obtain ⟨hy, hname⟩ := mem_of_client? h
      rw [List.inj_on_of_nodup_map hn hy hx hname]

theorem phase?_eq_some {phase : LockPhase} :
    l.phase? c = some phase ↔ ∃ mode, l.client? c = some ⟨c, mode, phase⟩ := by
  unfold phase?
  constructor
  · intro h
    obtain ⟨x, hx, rfl⟩ := Option.map_eq_some_iff.mp h
    obtain ⟨_, rfl⟩ := mem_of_client? hx
    exact ⟨x.mode, hx⟩
  · rintro ⟨mode, h⟩
    rw [h]
    rfl

theorem client?_setPhase (c d : κ) (phase : LockPhase) (l : Lock κ) :
    (l.setPhase c phase).client? d =
      (l.client? d).map fun x => if x.name = c then { x with phase } else x := by
  have same : ((fun x : LockClient κ => decide (x.name = d)) ∘
      fun x => if x.name = c then { x with phase } else x) = fun x => decide (x.name = d) := by
    funext x
    simp only [Function.comp]
    split <;> rfl
  unfold client? setPhase
  rw [List.find?_map, same]

theorem client?_setPhase_of_ne (h : d ≠ c) (phase : LockPhase) :
    (l.setPhase c phase).client? d = l.client? d := by
  rw [client?_setPhase]
  cases hx : l.client? d with
  | none => rfl
  | some x => simp [(mem_of_client? hx).2, h]

theorem client?_enter (mode : LockMode) (c d : κ) (l : Lock κ) :
    (l.enter mode c).client? d =
      (l.client? d).or (if c = d then some ⟨c, mode, .waiting⟩ else none) := by
  unfold client? enter
  rw [List.find?_append, List.find?_singleton]
  simp only [decide_eq_true_eq]

theorem names_setPhase (c : κ) (phase : LockPhase) (l : Lock κ) :
    (l.setPhase c phase).clients.map (·.name) = l.clients.map (·.name) := by
  unfold setPhase
  rw [List.map_map]
  refine List.map_congr_left fun x _ => ?_
  simp only [Function.comp]
  split <;> rfl

theorem mem_setPhase {phase : LockPhase} (h : x ∈ (l.setPhase c phase).clients) :
    ∃ y ∈ l.clients, y.name = x.name ∧ y.mode = x.mode := by
  obtain ⟨y, hy, rfl⟩ := List.mem_map.mp h
  refine ⟨y, hy, ?_⟩
  split <;> exact ⟨rfl, rfl⟩

theorem clients_setPhase (hn : l.Named) (h : l.client? c = some x) :
    ∃ a b, l.clients = a ++ x :: b ∧
      ∀ phase, (l.setPhase c phase).clients = a ++ { x with phase } :: b := by
  obtain ⟨hx, rfl⟩ := mem_of_client? h
  obtain ⟨a, b, e⟩ := List.append_of_mem hx
  refine ⟨a, b, e, fun phase => ?_⟩
  have hn' : (x.name :: (a.map (·.name) ++ b.map (·.name))).Nodup := by
    rw [← List.nodup_middle, ← List.map_cons, ← List.map_append, ← e]
    exact hn
  have others : ∀ y ∈ a ++ b, (if y.name = x.name then { y with phase } else y) = y := by
    intro y hy
    rw [if_neg]
    intro hname
    refine (List.nodup_cons.mp hn').1 ?_
    rw [← List.map_append, ← hname]
    exact List.mem_map_of_mem hy
  have kept : ∀ r ⊆ a ++ b,
      r.map (fun y => if y.name = x.name then { y with phase } else y) = r := fun r hr =>
    (List.map_congr_left fun y hy => others y (hr hy)).trans (List.map_id r)
  unfold setPhase
  rw [e, List.map_append, List.map_cons, if_pos rfl, kept a (by simp), kept b (by simp)]

variable {l' : Lock κ} {new : LockPhase}

theorem countP_moved (hn : l.Named) (h : l.client? c = some x)
    (hl : l'.clients = (l.setPhase c new).clients) (p : LockClient κ → Bool) :
    l'.clients.countP p + (if p x then 1 else 0) =
      l.clients.countP p + (if p { x with phase := new } then 1 else 0) := by
  obtain ⟨a, b, e, e'⟩ := clients_setPhase hn h
  rw [hl, e, e' new]
  simp only [List.countP_append, List.countP_cons]
  omega

theorem count_moved (hn : l.Named) (h : l.client? c = some x)
    (hl : l'.clients = (l.setPhase c new).clients) (mode : LockMode) (phase : LockPhase) :
    l'.count mode phase + (if x.mode = mode ∧ x.phase = phase then 1 else 0) =
      l.count mode phase + (if x.mode = mode ∧ new = phase then 1 else 0) := by
  simpa [count] using countP_moved hn h hl fun y => y.mode = mode ∧ y.phase = phase

theorem asking_moved (hn : l.Named) (h : l.client? c = some x)
    (hl : l'.clients = (l.setPhase c new).clients) (hnew : new ≠ .waiting) :
    l.asking.Perm ((if x.phase = .waiting then [c] else []) ++ l'.asking) := by
  obtain ⟨a, b, e, e'⟩ := clients_setPhase hn h
  obtain ⟨_, rfl⟩ := mem_of_client? h
  have rest : l'.asking = ((a ++ b).filter fun y => y.phase = .waiting).map (·.name) := by
    rw [asking, hl, e', List.filter_append, List.filter_cons_of_neg (by simpa using hnew),
      ← List.filter_append]
  rw [rest, asking, e]
  by_cases hx : x.phase = .waiting
  · rw [if_pos hx, List.filter_append, List.filter_cons_of_pos (by simpa using hx),
      List.filter_append, List.map_append, List.map_cons, List.map_append]
    exact List.perm_middle
  · rw [if_neg hx, List.filter_append, List.filter_cons_of_neg (by simpa using hx),
      ← List.filter_append]
    exact List.Perm.refl _

end clients

/-! ### The counters and the waiting clients -/

/-- How the counters, the waiting clients and the clients that have yet to try go together with the
phases of the clients. A reader only waits behind a writer that holds or waits, and a writer only
behind a client that holds. -/
structure Sound (awake : List κ) (l : Lock κ) : Prop where
  named : l.Named
  asking : l.asking.Perm (awake ++ l.waiting)
  readers : l.readers = l.count .read .holding
  writer : l.writer.toNat = l.count .write .holding
  writersWaiting : l.writersWaiting = l.count .write .waiting
  apart : l.writer = true → l.readers = 0
  readerBlocked : ∀ x ∈ l.clients, x.name ∈ l.waiting → x.mode = .read →
    l.writer = true ∨ l.writersWaiting ≠ 0
  writerBlocked : ∀ x ∈ l.clients, x.name ∈ l.waiting → x.mode = .write →
    l.writer = true ∨ l.readers ≠ 0

section sound

variable {l l' : Lock κ} {c : κ} {x : LockClient κ} {awake rest : List κ} {new : LockPhase}

omit [DecidableEq κ] in
theorem free_sound : (free : Lock κ).Sound [] where
  named := List.nodup_nil
  asking := List.Perm.nil
  readers := rfl
  writer := rfl
  writersWaiting := rfl
  apart := nofun
  readerBlocked := nofun
  writerBlocked := nofun

omit [DecidableEq κ] in
theorem mem_asking : c ∈ l.asking ↔ ∃ x ∈ l.clients, x.phase = .waiting ∧ x.name = c := by
  simp [Lock.asking, and_assoc]

theorem Sound.waits (h : l.Sound awake) (hc : c ∈ awake) :
    ∃ mode, l.client? c = some ⟨c, mode, .waiting⟩ := by
  have asks : c ∈ l.asking := h.asking.mem_iff.mpr (List.mem_append_left _ hc)
  obtain ⟨x, hx, hphase, rfl⟩ := mem_asking.mp asks
  refine ⟨x.mode, ?_⟩
  rw [client?_of_mem h.named hx, ← hphase]

theorem enter_sound (h : l.Sound []) (hc : l.client? c = none) (mode : LockMode) :
    (l.enter mode c).Sound [c] := by
  have fresh := client?_eq_none.mp hc
  have absent : c ∉ l.waiting := by
    intro hw
    have asks : c ∈ l.asking := h.asking.mem_iff.mpr hw
    obtain ⟨x, hx, _, rfl⟩ := mem_asking.mp asks
    exact fresh (List.mem_map_of_mem hx)
  have old : ∀ x ∈ (l.enter mode c).clients, x.name ∈ l.waiting → x ∈ l.clients := by
    intro x hx hw
    rcases List.mem_append.mp hx with hx | hx
    · exact hx
    · rw [List.mem_singleton.mp hx] at hw
      exact absurd hw absent
  have counts : ∀ m phase, (l.enter mode c).count m phase =
      l.count m phase + if mode = m ∧ .waiting = phase then 1 else 0 := by
    intro m phase
    unfold count enter
    rw [List.countP_append, List.countP_singleton]
    simp only [decide_eq_true_eq]
  refine ⟨?_, ?_, ?_, ?_, ?_, h.apart, ?_, ?_⟩
  · have names : (l.enter mode c).clients.map (·.name) = l.clients.map (·.name) ++ [c] :=
      List.map_append
    unfold Named
    rw [names]
    exact List.nodup_append_comm.mp (List.nodup_cons.mpr ⟨fresh, h.named⟩)
  · have asks : (l.enter mode c).asking = l.asking ++ [c] := by
      unfold asking enter
      rw [List.filter_append, List.map_append]
      rfl
    rw [asks]
    exact (h.asking.append_right [c]).trans (List.perm_append_comm)
  · rw [counts, if_neg (by simp)]
    exact h.readers
  · rw [counts, if_neg (by simp)]
    exact h.writer
  · rw [counts]
    simp only [and_true]
    exact congrArg (· + if mode = .write then 1 else 0) h.writersWaiting
  · intro x hx hw hm
    refine (h.readerBlocked x (old x hx hw) hw hm).imp id fun hl => ?_
    exact Nat.pos_iff_ne_zero.mp (Nat.lt_of_lt_of_le (Nat.pos_iff_ne_zero.mpr hl)
      (Nat.le_add_right _ _))
  · intro x hx hw hm
    exact h.writerBlocked x (old x hx hw) hw hm

theorem Sound.wait (h : l.Sound (c :: rest)) (hx : l.client? c = some x)
    (hr : x.mode = .read → l.writer = true ∨ l.writersWaiting ≠ 0)
    (hw : x.mode = .write → l.writer = true ∨ l.readers ≠ 0) : (l.wait c).Sound rest := by
  have added : ∀ y ∈ l.clients, y.name ∈ l.waiting ++ [c] → y.name ∈ l.waiting ∨ y = x := by
    intro y hy hn
    refine (List.mem_append.mp hn).imp id fun hc => ?_
    have hy' := client?_of_mem h.named hy
    rw [List.mem_singleton.mp hc, hx] at hy'
    exact (Option.some.inj hy').symm
  refine ⟨h.named, ?_, h.readers, h.writer, h.writersWaiting, h.apart, ?_, ?_⟩
  · refine h.asking.trans ?_
    rw [Lock.wait, ← List.append_assoc]
    exact (List.perm_append_singleton c (rest ++ l.waiting)).symm
  · intro y hy hn hm
    rcases added y hy hn with hn | rfl
    · exact h.readerBlocked y hy hn hm
    · exact hr hm
  · intro y hy hn hm
    rcases added y hy hn with hn | rfl
    · exact h.writerBlocked y hy hn hm
    · exact hw hm

theorem retry_cases {mode : LockMode} (hc : l.client? c = some ⟨c, mode, .waiting⟩) :
    ((mode = .read → l.writer = true ∨ l.writersWaiting ≠ 0) ∧
      (mode = .write → l.writer = true ∨ l.readers ≠ 0) ∧ l.retry c = l.wait c) ∨
    (mode = .read ∧ l.writer = false ∧ l.writersWaiting = 0 ∧
      l.retry c = { l.setPhase c .holding with readers := l.readers + 1 }) ∨
    (mode = .write ∧ l.writer = false ∧ l.readers = 0 ∧ l.retry c =
      { l.setPhase c .holding with writersWaiting := l.writersWaiting - 1, writer := true }) := by
  unfold retry
  rw [hc]
  cases mode with
  | read =>
      simp only [attempt, tryRead]
      split
      · next hb => exact Or.inl ⟨fun _ => by simpa using hb, nofun, rfl⟩
      · next hb => exact Or.inr (Or.inl (by simpa using hb))
  | write =>
      simp only [attempt, tryWrite]
      split
      · next hb => exact Or.inl ⟨nofun, fun _ => by simpa using hb, rfl⟩
      · next hb => exact Or.inr (Or.inr (by simpa using hb))

/-- What a move of a client from `x.phase` to `new` asks of the counters and of `waiting`, so that
`Sound` holds again. -/
theorem Sound.moved (h : l.Sound awake) (hx : l.client? c = some x) (hnew : new ≠ .waiting)
    (hl : l'.clients = (l.setPhase c new).clients)
    (hasking : ((if x.phase = .waiting then [c] else []) ++ (rest ++ l'.waiting)).Perm
      (awake ++ l.waiting))
    (hreaders : l'.readers + (if x.mode = .read ∧ x.phase = .holding then 1 else 0) =
      l.readers + if x.mode = .read ∧ new = .holding then 1 else 0)
    (hwriter : l'.writer.toNat + (if x.mode = .write ∧ x.phase = .holding then 1 else 0) =
      l.writer.toNat + if x.mode = .write ∧ new = .holding then 1 else 0)
    (hwaiting : l'.writersWaiting + (if x.mode = .write ∧ x.phase = .waiting then 1 else 0) =
      l.writersWaiting)
    (hapart : l'.writer = true → l'.readers = 0)
    (hr : ∀ y ∈ l.clients, y.name ∈ l'.waiting → y.mode = .read →
      l'.writer = true ∨ l'.writersWaiting ≠ 0)
    (hw : ∀ y ∈ l.clients, y.name ∈ l'.waiting → y.mode = .write →
      l'.writer = true ∨ l'.readers ≠ 0) : l'.Sound rest := by
  have counts := count_moved h.named hx hl
  have asks := asking_moved h.named hx hl hnew
  have old : ∀ y ∈ l'.clients, ∃ z ∈ l.clients, z.name = y.name ∧ z.mode = y.mode :=
    fun y hy => mem_setPhase (hl ▸ hy)
  refine ⟨?_, ?_, ?_, ?_, ?_, hapart, ?_, ?_⟩
  · unfold Named
    rw [hl, names_setPhase]
    exact h.named
  · exact (List.perm_append_left_iff _).mp ((asks.symm.trans h.asking).trans hasking.symm)
  · have := counts .read .holding
    rw [← h.readers] at this
    omega
  · have := counts .write .holding
    rw [← h.writer] at this
    omega
  · have := counts .write .waiting
    have none : (if x.mode = .write ∧ new = .waiting then 1 else 0) = 0 :=
      if_neg fun hc => hnew hc.2
    rw [← h.writersWaiting, none] at this
    omega
  · intro y hy hn hm
    obtain ⟨z, hz, hname, hmode⟩ := old y hy
    exact hr z hz (hname ▸ hn) (hmode.trans hm)
  · intro y hy hn hm
    obtain ⟨z, hz, hname, hmode⟩ := old y hy
    exact hw z hz (hname ▸ hn) (hmode.trans hm)

theorem retry_sound (h : l.Sound (c :: rest)) : (l.retry c).Sound rest := by
  obtain ⟨mode, hc⟩ := h.waits List.mem_cons_self
  rcases retry_cases hc with ⟨hr, hw, e⟩ | ⟨rfl, hwriter, _, e⟩ | ⟨rfl, hwriter, hreaders, e⟩
  · rw [e]
    exact h.wait hc hr hw
  · rw [e]
    refine h.moved hc (by decide) rfl (List.Perm.refl _) rfl rfl rfl ?_ h.readerBlocked ?_
    · intro hl
      exact absurd (hwriter.symm.trans hl) Bool.false_ne_true
    · exact fun _ _ _ _ => Or.inr (Nat.succ_ne_zero _)
  · -- The writer that goes on is one of those that are counted as waiting.
    have counted : 0 < l.writersWaiting := by
      rw [h.writersWaiting]
      exact List.countP_pos_iff.mpr ⟨_, (mem_of_client? hc).1, by simp⟩
    rw [e]
    refine h.moved hc (by decide) rfl (List.Perm.refl _) rfl ?_ ?_ (fun _ => hreaders) ?_ ?_
    · rw [hwriter]
      rfl
    · exact Nat.sub_add_cancel counted
    · exact fun _ _ _ _ => Or.inl rfl
    · exact fun _ _ _ _ => Or.inl rfl

theorem letGo_sound (h : l.Sound []) (hc : l.phase? c = some .holding) :
    (l.letGo c).Sound (l.woken c) := by
  obtain ⟨mode, hx⟩ := phase?_eq_some.mp hc
  have held : 0 < l.count mode .holding :=
    List.countP_pos_iff.mpr ⟨_, (mem_of_client? hx).1, by simp⟩
  unfold letGo woken
  rw [hx]
  cases mode with
  | read =>
      rw [← h.readers] at held
      have last : ∀ y ∈ l.clients, y.name ∈ (if l.readers - 1 = 0 then [] else l.waiting) →
          l.readers - 1 ≠ 0 ∧ y.name ∈ l.waiting := by
        intro y _ hy
        split at hy
        · exact absurd hy List.not_mem_nil
        · next hn => exact ⟨hn, hy⟩
      refine h.moved hx (by decide) rfl ?_ ?_ rfl rfl ?_ ?_ ?_
      · simp only [reduceCtorEq, if_false, List.nil_append]
        split
        · rw [List.append_nil]
        · rw [List.nil_append]
      · exact Nat.sub_add_cancel held
      · intro hl
        have := h.apart hl
        omega
      · exact fun y hy hn hm => h.readerBlocked y hy (last y hy hn).2 hm
      · exact fun y hy hn _ => Or.inr (last y hy hn).1
  | write =>
      have writing : l.writer = true := by
        rw [← h.writer] at held
        cases hl : l.writer with
        | true => rfl
        | false => rw [hl] at held; exact absurd held (Nat.lt_irrefl 0)
      refine h.moved hx (by decide) rfl ?_ rfl ?_ rfl (fun _ => h.apart writing) ?_ ?_
      · exact List.Perm.of_eq (List.append_nil _)
      · rw [writing]
        rfl
      · exact fun _ _ hn _ => absurd hn List.not_mem_nil
      · exact fun _ _ hn _ => absurd hn List.not_mem_nil

theorem Reached.sound (h : Reached awake l) : l.Sound awake := by
  have steps : ∀ {s t : List κ × Lock κ}, s.2.Sound s.1 → Step s t → t.2.Sound t.1 := by
    intro s t hs step
    cases step with
    | enter mode c hc => exact enter_sound hs hc mode
    | letGo c hc => exact letGo_sound hs hc
    | retry c rest => exact retry_sound hs
  have all : ∀ s : List κ × Lock κ, Relation.ReflTransGen Step ([], free) s → s.2.Sound s.1 := by
    intro s hs
    induction hs with
    | refl => exact free_sound
    | tail _ step ih => exact steps ih step
  exact all (awake, l) h

end sound

/-! ### Calls -/

section calls

variable {l : Lock κ} {c : κ}

theorem request_eq (hc : l.client? c = none) (mode : LockMode) :
    l.request mode c = (l.enter mode c).retry c := by
  unfold retry
  rw [client?_enter, hc, if_pos rfl, Option.none_or]
  cases mode <;> rfl

/-- `request` is made of steps. -/
theorem request_steps (hc : l.client? c = none) (mode : LockMode) :
    Relation.ReflTransGen Step ([], l) ([], l.request mode c) := by
  rw [request_eq hc]
  exact .tail (.single (.enter mode c hc)) (.retry c [])

theorem release_eq (hc : l.phase? c = some .holding) :
    l.release c = (l.woken c).foldl retry (l.letGo c) := by
  obtain ⟨mode, hx⟩ := phase?_eq_some.mp hc
  unfold release letGo woken
  rw [hx]
  cases mode with
  | read =>
      simp only
      split <;> rfl
  | write => rfl

theorem tries_steps (awake : List κ) (l : Lock κ) :
    Relation.ReflTransGen Step (awake, l) ([], awake.foldl retry l) := by
  induction awake generalizing l with
  | nil => exact .refl
  | cons c rest ih => exact .head (.retry c rest) (ih (l.retry c))

theorem release_steps (hc : l.phase? c = some .holding) :
    Relation.ReflTransGen Step ([], l) ([], l.release c) := by
  rw [release_eq hc]
  exact .head (.letGo c hc) (tries_steps _ _)

end calls

/-! ### Who passes -/

section passing

variable {l l' : Lock κ} {c : κ} {awake awake' : List κ}

theorem clients_letGo (hc : l.phase? c = some .holding) :
    (l.letGo c).clients = (l.setPhase c .done).clients := by
  obtain ⟨mode, hx⟩ := phase?_eq_some.mp hc
  unfold letGo
  rw [hx]
  cases mode <;> rfl

theorem client?_of_clients (h : l'.clients = l.clients) : l'.client? c = l.client? c := by
  unfold client?
  rw [h]

/-- A reader comes to hold the lock only where no writer waits. -/
theorem Step.passes_no_writer (hs : l.Sound awake) (step : Step (awake, l) (awake', l'))
    (before : l.phase? c ≠ some .holding) (after : l'.client? c = some ⟨c, .read, .holding⟩) :
    l.count .write .waiting = 0 ∧ l'.count .write .waiting = 0 := by
  have new : l.client? c ≠ some ⟨c, .read, .holding⟩ := fun h => before (phase?_eq_some.mpr ⟨_, h⟩)
  cases step with
  | enter mode d hd =>
      rw [client?_enter] at after
      cases hx : l.client? c with
      | some x =>
          rw [hx] at after new
          exact absurd after new
      | none =>
          rw [hx, Option.none_or] at after
          split at after <;> simp at after
  | letGo d hd =>
      rw [client?_of_clients (clients_letGo hd)] at after
      by_cases hcd : c = d
      · exact absurd (hcd ▸ hd) before
      · rw [client?_setPhase_of_ne hcd] at after
        exact absurd after new
  | retry d rest =>
      obtain ⟨mode, hd⟩ := hs.waits List.mem_cons_self
      have hs' := retry_sound hs
      rcases retry_cases hd with ⟨_, _, e⟩ | ⟨_, _, hwaiting, e⟩ | ⟨rfl, _, _, e⟩
      · rw [e] at after
        exact absurd after new
      · refine ⟨hs.writersWaiting.symm.trans hwaiting, ?_⟩
        rw [← hs'.writersWaiting, e]
        exact hwaiting
      · have moved : (l.retry d).clients = (l.setPhase d .holding).clients := by rw [e]
        rw [client?_of_clients moved] at after
        by_cases hcd : c = d
        · rw [client?_setPhase, hcd, hd] at after
          simp at after
        · rw [client?_setPhase_of_ne hcd] at after
          exact absurd after new

/-- **The lock excludes, counts, and lets writers go first.** Whatever is reached, also between two
tries:

* at most one writer holds, and where a writer holds no reader does;
* the counters are the number of readers that hold, whether a writer holds, and the number of
  writers that have asked and do not hold yet;
* a step after which a reader holds that did not hold before it is one where no writer waits;
* the calls of the lock are made of such steps. -/
theorem reached_excludes (h : Reached awake l) :
    l.count .write .holding ≤ 1 ∧
      (l.count .write .holding ≠ 0 → l.count .read .holding = 0) ∧
      (l.readers = l.count .read .holding ∧ (l.writer = true ↔ l.count .write .holding = 1) ∧
        l.writersWaiting = l.count .write .waiting) ∧
      (∀ awake' l' c, Step (awake, l) (awake', l') → l.phase? c ≠ some .holding →
        l'.client? c = some ⟨c, .read, .holding⟩ →
        l.count .write .waiting = 0 ∧ l'.count .write .waiting = 0) ∧
      ((∀ mode c, l.client? c = none →
          Relation.ReflTransGen Step ([], l) ([], l.request mode c)) ∧
        ∀ c, l.phase? c = some .holding →
          Relation.ReflTransGen Step ([], l) ([], l.release c)) := by
  have hs := h.sound
  have writer := hs.writer
  refine ⟨?_, ?_, ⟨hs.readers, ?_, hs.writersWaiting⟩, ?_, ?_, ?_⟩
  · rw [← writer]
    exact Bool.toNat_le l.writer
  · intro hw
    rw [← hs.readers]
    refine hs.apart ?_
    cases hl : l.writer with
    | true => rfl
    | false => exact absurd (by rw [← writer, hl]; rfl) hw
  · rw [← writer]
    cases l.writer <;> simp
  · exact fun awake' l' c step before after => step.passes_no_writer hs before after
  · exact fun mode c hc => request_steps hc mode
  · exact fun c hc => release_steps hc

/-- Two readers and a writer between them ask, and the first reader lets go. The writer has tried
and holds the lock; the second reader is still to try, and will wait. -/
theorem reached_excludes_between_tries :
    let l : Lock String := (((free.request .read "r").request .write "w").request .read "s")
    let t := (l.letGo "r").retry "w"
    l.woken "r" = ["w", "s"] ∧ Reached ["s"] t ∧ t.count .write .holding = 1 ∧
      t.count .read .holding = 0 ∧ (t.retry "s").phase? "s" = some .waiting := by
  intro l t
  have asked : Reached [] l :=
    ((request_steps (l := free) (c := "r") rfl .read).trans (request_steps rfl .write)).trans
      (request_steps rfl .read)
  have woken : l.woken "r" = ["w", "s"] := rfl
  have let_go : Reached ["w", "s"] (l.letGo "r") := by
    rw [← woken]
    exact asked.tail (.letGo "r" rfl)
  have tried : Reached ["s"] t := let_go.tail (.retry "w" ["s"])
  obtain ⟨_, alone, ⟨_, writer, _⟩, _⟩ := reached_excludes tried
  have holds : t.count .write .holding = 1 := writer.mp rfl
  exact ⟨woken, tried, holds, alone (by rw [holds]; decide), rfl⟩

end passing

end QuotaWarden.Lock
