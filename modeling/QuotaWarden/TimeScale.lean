import QuotaWarden.Json.Double

/-!
# Time

Points and amounts of time, in seconds. The operator only adds, subtracts, compares and doubles
them, and halves numbers of seconds, so it runs on any scale that can do this; the one in use is
double precision.

* `TimeScale` is what a scale can do.
* `TimeScale.less` is the lesser of two amounts, the first one if they are equal;
  `TimeScale.positive` tells whether an amount is more than none. -/

namespace QuotaWarden

/-- What can be done with amounts of time. -/
class TimeScale (τ : Type) extends Add τ, Sub τ, Zero τ where
  /-- Whether the first amount is at most the second. -/
  atMost : τ → τ → Bool
  /-- The amount, doubled a number of times. -/
  doubled : τ → Nat → τ
  /-- Half of the number of seconds that a value is. -/
  halved : Json → Except Fault τ
  /-- A number of seconds divided by a power of ten. -/
  seconds : Nat → Nat → τ

namespace TimeScale

variable {τ : Type} [TimeScale τ]

/-- The lesser of `x` and `y`, `x` if they are equal. -/
def less (x y : τ) : τ := if atMost x y then x else y

/-- `x` is more than zero. -/
def positive (x : τ) : Bool := atMost 0 x && !atMost x 0

def same (x y : τ) : Bool := atMost x y && atMost y x

end TimeScale

instance : TimeScale Float where
  zero := 0.0
  atMost x y := x ≤ y
  doubled x k := x * Float.ofNat (Nat.pow 2 k)
  halved := Json.half
  seconds n k := Float.ofScientific n true k

end QuotaWarden
