import QuotaWarden.Number.Binary

/-!
# Shortest decimal text of a double

A double is written with the fewest digits that read back as the same double, and of those with the
digits nearest to it. Every decimal in the interval of the reals that round to the double reads
back; the ends belong to it when the significand is even. For one digit, two digits and so on, the
two neighbours of the double on the grid of that many digits are tried; the first grid with a hit
wins.

* `shortest` gives the digits and their exponent.
* `FloatStyle` holds the choices of a written form, `plainStyle` those of log lines and reviews.
* `writeFloat` writes a double.
-/

namespace QuotaWarden.Number

structure Fraction where
  num : Nat
  den : Nat

namespace Fraction

def ofBinary (m : Nat) (q : Int) : Fraction :=
  if 0 ≤ q then ⟨m * twoTo q.toNat, 1⟩ else ⟨m, twoTo (-q).toNat⟩

def ofDecimal (n : Nat) (e : Int) : Fraction :=
  if 0 ≤ e then ⟨n * tenTo e.toNat, 1⟩ else ⟨n, tenTo (-e).toNat⟩

def cmp (x y : Fraction) : Ordering := compare (x.num * y.den) (y.num * x.den)

def distance (x y : Fraction) : Fraction :=
  let a := x.num * y.den
  let b := y.num * x.den
  ⟨(a - b) + (b - a), x.den * y.den⟩

/-- The whole part of a fraction measured in units of `10 ^ e`. -/
def floorAt (x : Fraction) (e : Int) : Nat :=
  if 0 ≤ e then x.num / (x.den * tenTo e.toNat) else x.num * tenTo (-e).toNat / x.den

end Fraction

/-- The number of zeros after the point of `num / den`, at most `fuel`. -/
def zerosAfterPoint : Nat → Nat → Nat → Nat
  | 0, _, _ => 0
  | fuel + 1, num, den => if den ≤ num * 10 then 0 else zerosAfterPoint fuel (num * 10) den + 1

/-- The number of digits before the point; for a fraction below one, less the zeros after it. -/
def pointPlace (x : Fraction) : Int :=
  if x.den ≤ x.num then digitCount (x.num / x.den) else -zerosAfterPoint 400 x.num x.den

/-- The reals that round to `m · 2 ^ q`, by their ends in quarters of the spacing. -/
structure Interval where
  low : Fraction
  high : Fraction
  closed : Bool

/-- The reals that round to the double with significand `m` and exponent `q`; just above a power of
two the spacing below is half of that above. -/
def Interval.around (m : Nat) (q : Int) : Interval :=
  let gap := if m = twoTo 52 && -1074 < q then 1 else 2
  ⟨.ofBinary (4 * m - gap) (q - 2), .ofBinary (4 * m + 2) (q - 2), m % 2 = 0⟩

/-- Whether a fraction lies in the interval. -/
def Interval.holds (i : Interval) (x : Fraction) : Bool :=
  match i.low.cmp x, x.cmp i.high with
  | .lt, .lt => true
  | .eq, .lt => i.closed
  | .lt, .eq => i.closed
  | _, _ => false

/-- The neighbour of `x` on the grid of step `10 ^ e` that reads back, the nearer one if both do. -/
def neighbour? (x : Fraction) (i : Interval) (e : Int) : Option Nat :=
  let below := x.floorAt e
  let above := below + 1
  let belowOk := below ≠ 0 && i.holds (.ofDecimal below e)
  let aboveOk := i.holds (.ofDecimal above e)
  if belowOk && aboveOk then
    match (x.distance (.ofDecimal below e)).cmp (x.distance (.ofDecimal above e)) with
    | .lt => some below
    | .gt => some above
    | .eq => some (if below % 2 = 0 then below else above)
  else if belowOk then some below
  else if aboveOk then some above
  else none

/-- The first grid with a hit, from the coarsest to seventeen digits and one more. -/
def searchGrids (x : Fraction) (i : Interval) : Nat → Int → Option (Nat × Int)
  | 0, _ => none
  | fuel + 1, e =>
    match neighbour? x i e with
    | some n => some (n, e)
    | none => searchGrids x i fuel (e - 1)

/-- The shortest digits of a positive double, and the exponent of the last one. -/
def shortest (m : Nat) (q : Int) : Nat × Int :=
  let x := Fraction.ofBinary m q
  ((searchGrids x (.around m q) 18 (pointPlace x - 1)).getD (0, 0))

/-- The choices of a written form. -/
structure FloatStyle where
  /-- The least exponent of a first digit that is written out with a point. -/
  leastPositional : Int
  /-- The first exponent that is too large for that. -/
  firstExponential : Int
  /-- What ends an integer. -/
  wholeSuffix : String
  /-- The least number of digits of an exponent. -/
  exponentDigits : Nat
  infinity : String
  nan : String

/-- Fractions from `0.0001` and below `10 ^ 16` are written out, the others with an exponent. -/
def plainStyle : FloatStyle := ⟨-4, 16, ".0", 2, "inf", "nan"⟩

/-- Digits with a point after the first `place` of them. -/
def positional (style : FloatStyle) (ds : List Char) (place : Int) : String :=
  if place ≤ 0 then
    "0." ++ String.ofList (List.replicate (-place).toNat '0' ++ ds)
  else if ds.length ≤ place.toNat then
    String.ofList (ds ++ List.replicate (place.toNat - ds.length) '0') ++ style.wholeSuffix
  else
    String.ofList (ds.take place.toNat ++ '.' :: ds.drop place.toNat)

/-- Digits with a point after the first, and an exponent. -/
def exponential (style : FloatStyle) (ds : List Char) (place : Int) : String :=
  let mantissa :=
    match ds with
    | [d] => [d]
    | d :: r => d :: '.' :: r
    | [] => []
  let e := place - 1
  let es := Nat.toDigits 10 e.natAbs
  let padded := List.replicate (style.exponentDigits - es.length) '0' ++ es
  String.ofList (mantissa ++ 'e' :: (if e < 0 then '-' else '+') :: padded)

/-- A positive double in a given style. -/
def writeMagnitude (style : FloatStyle) (m : Nat) (q : Int) : String :=
  let (n, e) := shortest m q
  let (n, e) := Decimal.stripZeros n e
  let ds := Nat.toDigits 10 n
  let place := e + ds.length
  if style.leastPositional < place && place ≤ style.firstExponential then positional style ds place
  else exponential style ds place

def writeBinary (style : FloatStyle) : Binary → String
  | .nan => style.nan
  | .infinite negative => (if negative then "-" else "") ++ style.infinity
  | .finite negative m q =>
    (if negative then "-" else "") ++
      (if m = 0 then "0" ++ style.wholeSuffix else writeMagnitude style m q)

def writeFloat (x : Float) : String := writeBinary plainStyle (.ofFloat x)

end QuotaWarden.Number
