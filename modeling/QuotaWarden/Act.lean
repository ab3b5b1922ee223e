import QuotaWarden.Fault

/-!
# Actions

An action works on a state and gives a value or fails. What it did to the state before it failed
stays done.

* `Act S α` is the type of such actions; `Act.fail` fails, `Act.attempt` turns a failure into a
  value, `Act.within` lets an action on a part of the state act on the whole. -/

namespace QuotaWarden

/-- An action on a state that gives a value or fails. -/
def Act (S α : Type) : Type := S → Except Fault α × S

namespace Act

variable {S T α β : Type}

def give (x : α) : Act S α := fun s => (.ok x, s)

/-- `f x` after `a` has given `x`; a fault of `a` ends both. -/
def andThen (a : Act S α) (f : α → Act S β) : Act S β := fun s =>
  match a s with
  | (.ok x, s) => f x s
  | (.error e, s) => (.error e, s)

instance : Monad (Act S) where
  pure := give
  bind := andThen

def fail (f : Fault) : Act S α := fun s => (.error f, s)

/-- Does an action; a failure is a value like any other. -/
def attempt (a : Act S α) : Act S (Except Fault α) := fun s =>
  let (r, s) := a s
  (.ok r, s)

def state : Act S S := fun s => (.ok s, s)

def change (f : S → S) : Act S Unit := fun s => (.ok (), f s)

/-- Gives a value that is there already, or fails. -/
def lift (r : Except Fault α) : Act S α := fun s => (r, s)

/-- Lets an action on a part of the state act on the whole. -/
def within (part : S → T) (put : T → S → S) (a : Act T α) : Act S α := fun s =>
  let (r, t) := a (part s)
  (r, put t s)

@[simp] theorem pure_apply (x : α) (s : S) : (pure x : Act S α) s = (.ok x, s) := rfl

theorem bind_apply (a : Act S α) (f : α → Act S β) (s : S) :
    (a >>= f) s = match a s with
      | (.ok x, s) => f x s
      | (.error e, s) => (.error e, s) := rfl

@[simp] theorem fail_apply (f : Fault) (s : S) : (fail f : Act S α) s = (.error f, s) := rfl

@[simp] theorem attempt_apply (a : Act S α) (s : S) : attempt a s = (.ok (a s).1, (a s).2) := rfl

@[simp] theorem state_apply (s : S) : (state : Act S S) s = (.ok s, s) := rfl

@[simp] theorem change_apply (f : S → S) (s : S) : change f s = (.ok (), f s) := rfl

@[simp] theorem lift_apply (r : Except Fault α) (s : S) : (lift r : Act S α) s = (r, s) := rfl

theorem bind_of_ok {a : Act S α} {f : α → Act S β} {s s' : S} {x : α} (h : a s = (.ok x, s')) :
    (a >>= f) s = f x s' := by
  rw [bind_apply, h]

theorem bind_of_error {a : Act S α} {f : α → Act S β} {s s' : S} {e : Fault}
    (h : a s = (.error e, s')) : (a >>= f) s = (.error e, s') := by
  rw [bind_apply, h]

theorem bind_eq_ok {a : Act S α} {f : α → Act S β} {s s' : S} {y : β} :
    (a >>= f) s = (.ok y, s') ↔ ∃ x t, a s = (.ok x, t) ∧ f x t = (.ok y, s') := by
  rw [bind_apply]
  rcases a s with ⟨r, t⟩
  cases r with
  | ok x =>
    constructor
    · intro h
      exact ⟨x, t, rfl, h⟩
    · rintro ⟨_, _, ⟨⟩, h⟩
      exact h
  | error e => simp

theorem map_apply (f : α → β) (a : Act S α) (s : S) :
    (f <$> a) s = ((a s).1.map f, (a s).2) := by
  change (a >>= fun x => pure (f x)) s = _
  rw [bind_apply]
  rcases a s with ⟨r, t⟩
  cases r <;> rfl

def forEach (xs : List α) (f : α → Act S Unit) : Act S Unit :=
  match xs with
  | [] => give ()
  | x :: r => andThen (f x) fun _ => forEach r f

end Act

end QuotaWarden
