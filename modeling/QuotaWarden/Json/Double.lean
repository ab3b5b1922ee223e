import QuotaWarden.Fault

/-!
# Doubles from JSON

An amount of time in JSON is a double: an integer is rounded, true is one and false is zero.

* `Json.double` is the double that a value is, `Json.half` its half.
* No double is near an integer beyond the largest one. Half of an integer is rounded only once, so
  it may be a double where the integer is none.
-/

namespace QuotaWarden.Json

/-- The double nearest to `n · 10 ^ e`, unless it is beyond the largest one. -/
def nearest (n : Int) (e : Int) (beyond : Fault) : Except Fault Float :=
  let x := ofDecimalParts (n < 0) n.natAbs e
  if x.isInf then .error beyond else .ok x

/-- The double that a value is. -/
def double (v : Json) : Except Fault Float :=
  match v with
  | .int n => nearest n 0 .integerTooLarge
  | .bool b => .ok (if b then 1.0 else 0.0)
  | .float x => .ok x
  | v => .error (.notANumber v.kindName)

/-- Half of the number that a value is. -/
def half (v : Json) : Except Fault Float :=
  match v with
  | .int n => nearest (5 * n) (-1) .halfTooLarge
  | .bool b => .ok (if b then 0.5 else 0.0)
  | .float x => .ok (x / 2.0)
  | v => .error (.notHalved v.kindName)

end QuotaWarden.Json
