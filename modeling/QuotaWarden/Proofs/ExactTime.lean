import QuotaWarden.TimeScale
import Mathlib.Algebra.Order.Field.Rat
import Mathlib.Tactic.NormNum

/-! # Exact time

A `TimeScale` may round. `Exact value` says that `value : τ → ℚ` commutes with `+`, `atMost` and
`doubled`, and `ExactClock value` also with `-` and `halved`; on such a scale `less` is `min`.
`exactTime` is the scale `ℚ` itself, an instance where `TimeScale` is open. -/

namespace QuotaWarden

/-- The number that `v` is, unless `v` is infinite, a NaN, or no number at all. -/
def Json.rational? (v : Json) : Option ℚ :=
  match v with
  | .int n => some n
  | .bool b => some (if b then 1 else 0)
  | .float x =>
    match Binary.ofFloat x with
    | .finite negative m q => some (Number.signed negative m * 2 ^ q)
    | _ => none
  | _ => none

namespace TimeScale

variable {τ : Type} [TimeScale τ]

/-- `value` commutes with `+`, `atMost` and `doubled`. -/
structure Exact (value : τ → ℚ) : Prop where
  add : ∀ x y, value (x + y) = value x + value y
  atMost : ∀ x y, atMost x y = true ↔ value x ≤ value y
  doubled : ∀ x n, value (doubled x n) = value x * 2 ^ n

/-- `value` also commutes with `-` and `halved`. -/
structure ExactClock (value : τ → ℚ) : Prop extends Exact value where
  sub : ∀ x y, value (x - y) = value x - value y
  halved : ∀ v q, v.rational? = some q → ∃ x : τ, halved v = .ok x ∧ value x = q / 2

theorem Exact.less {value : τ → ℚ} (h : Exact value) (x y : τ) :
    value (less x y) = min (value x) (value y) := by
  unfold TimeScale.less
  split
  · next hxy => exact (min_eq_left ((h.atMost x y).mp hxy)).symm
  · next hxy => exact (min_eq_right (not_le.mp (mt (h.atMost x y).mpr hxy)).le).symm

/-- Time in exact numbers. -/
scoped instance exactTime : TimeScale ℚ where
  atMost x y := decide (x ≤ y)
  doubled x n := x * 2 ^ n
  halved v := v.rational?.elim (.error (.notHalved v.kindName)) fun q => .ok (q / 2)
  seconds n k := n / 10 ^ k

theorem exactTime_clock : ExactClock (fun x : ℚ => x) where
  add _ _ := rfl
  atMost _ _ := decide_eq_true_iff
  doubled _ _ := rfl
  sub _ _ := rfl
  halved v q h := ⟨q / 2, by simp [TimeScale.halved, h], rfl⟩

end TimeScale

end QuotaWarden
