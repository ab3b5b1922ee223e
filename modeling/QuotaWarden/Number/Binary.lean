import QuotaWarden.Decimal.Basic

/-!
# Binary fractions

A double is read here through its bits: a significand times a power of two, an infinity or a NaN.

* `Binary.ofFloat` is that reading, `Binary.truncate?` the integer toward zero.
* `Binary.toDecimal` is the exact decimal of a double (every binary fraction is one).
* `ofDecimalParts` is the double nearest to a decimal.
-/

namespace QuotaWarden

open Number

/-- The meaning of a double. -/
inductive Binary where
  | finite (negative : Bool) (significand : Nat) (exponent : Int)
  | infinite (negative : Bool)
  | nan
deriving DecidableEq, Repr

namespace Binary

/-- The meaning of the bits of a double. -/
def ofBits (b : UInt64) : Binary :=
  let n := b.toNat
  let negative := twoTo 63 ≤ n
  let e : Nat := n / twoTo 52 % 2048
  let m : Nat := n % twoTo 52
  if e = 2047 then if m = 0 then infinite negative else nan
  else if e = 0 then finite negative m (-1074)
  else finite negative (m + twoTo 52) ((e : Int) - 1075)

def ofFloat (x : Float) : Binary := ofBits x.toBits

/-- The integer between zero and a double that is nearest to the double. -/
def truncate? : Binary → Option Int
  | finite negative m q =>
    some (signed negative (if 0 ≤ q then m * twoTo q.toNat else m / twoTo (-q).toNat))
  | _ => none

/-- The exact decimal of a double: a division by two is a multiplication by five tenths. -/
def toDecimal : Binary → Decimal
  | finite negative m q =>
    if 0 ≤ q then Decimal.ofParts (signed negative (m * twoTo q.toNat)) 0
    else Decimal.ofParts (signed negative (m * Nat.pow 5 (-q).toNat)) q
  | infinite negative => .infinite negative
  | nan => .quietNaN

/-- The integer that a double is, if it is one. -/
def whole? : Binary → Option Int
  | finite negative m q =>
    if 0 ≤ q then some (signed negative (m * twoTo q.toNat))
    else if m % twoTo (-q).toNat = 0 then some (signed negative (m / twoTo (-q).toNat))
    else none
  | _ => none

end Binary

/-- The double nearest to `±n · 10 ^ e`. -/
def ofDecimalParts (negative : Bool) (n : Nat) (e : Int) : Float :=
  let magnitude : Float :=
    if n = 0 then 0.0
    else if 400 < e + digitCount n then 1.0 / 0.0
    else if e + digitCount n < -400 then 0.0
    else Float.ofScientific n (e < 0) e.natAbs
  if negative then -magnitude else magnitude

end QuotaWarden
