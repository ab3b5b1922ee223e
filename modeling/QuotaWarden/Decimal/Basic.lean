import QuotaWarden.Number.Integer

/-!
# Decimal numbers

A decimal number is a coefficient times a power of ten, or one of four special values. Exponents may
be huge (a text may write `1e999999999999999999`), so nothing here writes a number out in full
unless its digits are already there.

* `Decimal.ofParts` gives the canonical form of a coefficient and an exponent: no trailing zero in
  the coefficient, and zero with exponent zero.
* `Decimal.compare?` orders numbers by value; a NaN has no order.
* `Decimal.isWhole`, `Decimal.ceiling` are about the integers around a number.
-/

namespace QuotaWarden

open Number

/-- A decimal number, or a special value. -/
inductive Decimal where
  | finite (coef exp : Int)
  | infinite (negative : Bool)
  | quietNaN
  | signalingNaN
deriving DecidableEq, Repr, Inhabited

namespace Decimal

/-- Moves the trailing zeros of a coefficient into the exponent. -/
def stripZeros (n : Nat) (e : Int) : Nat × Int :=
  if h : n ≠ 0 ∧ n % 10 = 0 then stripZeros (n / 10) (e + 1) else (n, e)
termination_by n
decreasing_by omega

/-- The canonical decimal of a coefficient and an exponent. -/
def ofParts (c e : Int) : Decimal :=
  if c = 0 then finite 0 0
  else
    let (n, e) := stripZeros c.natAbs e
    finite (signed (c < 0) n) e

def ofInt (n : Int) : Decimal := ofParts n 0

instance : OfNat Decimal n := ⟨ofInt n⟩

/-- The exponent of the first digit of a nonzero number. -/
def adjusted (c e : Int) : Int := e + digitCount c.natAbs - 1

/-- Orders two magnitudes, both nonzero; the coefficients are aligned only when their first digits
stand at the same place. -/
def compareMagnitudes (m : Nat) (e : Int) (n : Nat) (f : Int) : Ordering :=
  match compare (adjusted m e) (adjusted n f) with
  | .eq => compare (m * tenTo (e - f).toNat) (n * tenTo (f - e).toNat)
  | o => o

def compareFinite (c e d f : Int) : Ordering :=
  match compare (Int.sign c) (Int.sign d) with
  | .eq =>
    if c = 0 then .eq
    else if 0 < c then compareMagnitudes c.natAbs e d.natAbs f
    else compareMagnitudes d.natAbs f c.natAbs e
  | o => o

/-- Orders two numbers by value; a NaN has no order. -/
def compare? : Decimal → Decimal → Option Ordering
  | finite c e, finite d f => some (compareFinite c e d f)
  | finite _ _, infinite negative => some (if negative then .gt else .lt)
  | infinite negative, finite _ _ => some (if negative then .lt else .gt)
  | infinite m, infinite n =>
    some (if m = n then .eq else if m then .lt else .gt)
  | _, _ => none

/-- Whether a number is neither infinite nor a NaN. -/
def isFinite : Decimal → Bool
  | finite _ _ => true
  | _ => false

def isWhole (c e : Int) : Bool :=
  c = 0 || 0 ≤ e || ((-e).toNat < digitCount c.natAbs && c % tenTo (-e).toNat = 0)

/-- The coefficient and exponent of the least integer at or above a number. -/
def ceiling (c e : Int) : Int × Int :=
  if 0 ≤ e then (c, e)
  else if digitCount c.natAbs < (-e).toNat then (if 0 < c then 1 else 0, 0)
  else (-(-c / tenTo (-e).toNat), 0)

/-- The integer that a whole number is, if its text is not too long to be of use. -/
def wholeValue? (c e : Int) : Option Int :=
  if c = 0 then some 0
  else if e < 0 then some (c / tenTo (-e).toNat)
  else if e + digitCount c.natAbs ≤ digitLimit + 40 then some (c * tenTo e.toNat)
  else none

end Decimal

end QuotaWarden
