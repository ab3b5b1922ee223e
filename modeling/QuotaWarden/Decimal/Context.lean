import QuotaWarden.Decimal.Basic

/-!
# Rounded decimal arithmetic

Sums and products keep a fixed number of significant digits. A result is first rounded, a half going
to the even neighbour, and its range is checked after that: too large a result is an overflow, too
small a one loses digits and then becomes zero.

* `Context` fixes the number of digits and the range; `working` is the one in use.
* `Context.round` rounds a coefficient times a power of ten.
* `Decimal.add`, `Decimal.mul` are the two operations, `Decimal.lt` the comparison.

Operands may be so far apart that their exact sum could not be written down. The smaller one is then
replaced by a single unit below every digit that rounding looks at (`Decimal.sticky`). -/

namespace QuotaWarden

open Number

/-- What stops an arithmetic operation. -/
inductive Signal where
  /-- A result above the range. -/
  | overflow
  /-- A comparison with a NaN, any use of a signaling NaN, or a difference of infinities. -/
  | invalidOperation
deriving DecidableEq, Repr

/-- The precision and range of an arithmetic. -/
structure Context where
  /-- The number of significant digits of a result. -/
  digits : Nat
  /-- The largest exponent of the first digit of a result. -/
  maxExponent : Int
  /-- The least exponent of the last digit of a result. -/
  leastExponent : Int

/-- The arithmetic of quantities: 28 digits. -/
def Context.working : Context := ⟨28, 999999, -1000026⟩

/-- Divides by a power of ten and rounds to nearest, a half to even. -/
def halfEven (n drop : Nat) : Nat :=
  if digitCount n < drop then 0
  else
    let p := tenTo drop
    let q := n / p
    let r := n % p
    if 2 * r < p then q
    else if p < 2 * r then q + 1
    else q + q % 2

/-- The number of digits that a coefficient with a given exponent loses. -/
def Context.excess (k : Context) (n : Nat) (e : Int) : Nat :=
  max (digitCount n - k.digits) (k.leastExponent - e).toNat

/-- Rounds a coefficient times a power of ten and checks the range of the result. -/
def Context.round (k : Context) (c e : Int) : Except Signal Decimal :=
  if c = 0 then .ok (.finite 0 0)
  else
    let drop := k.excess c.natAbs e
    let q := halfEven c.natAbs drop
    if q = 0 then .ok (.finite 0 0)
    else if k.maxExponent < Decimal.adjusted q (e + drop) then .error .overflow
    else .ok (Decimal.ofParts (signed (c < 0) q) (e + drop))

namespace Decimal

/-- The place below which one operand only tells on which side of a rounding point the sum lies. -/
def stickyPlace (k : Context) (c e : Int) : Int := min e (adjusted c e - (k.digits + 2))

/-- One unit, with the sign of `d`, just below the sticky place of `c · 10 ^ e`. -/
def sticky (k : Context) (c e d : Int) : Int × Int := (Int.sign d, stickyPlace k c e - 1)

def exactSum (c e d f : Int) : Int × Int :=
  let g := min e f
  (c * tenTo (e - g).toNat + d * tenTo (f - g).toNat, g)

/-- The sum of two nonzero numbers, the first with its first digit at or above that of the second,
exact as far as rounding can tell. -/
def orderedSum (k : Context) (c e d f : Int) : Int × Int :=
  if adjusted d f + 1 < stickyPlace k c e then
    let (u, g) := sticky k c e d
    exactSum c e u g
  else exactSum c e d f

def addFinite (k : Context) (c e d f : Int) : Except Signal Decimal :=
  if c = 0 then k.round d f
  else if d = 0 then k.round c e
  else
    let (s, g) :=
      if adjusted d f ≤ adjusted c e then orderedSum k c e d f else orderedSum k d f c e
    k.round s g

/-- `x + y`, rounded by `k`; infinities of two signs have no sum. -/
def add (k : Context) : Decimal → Decimal → Except Signal Decimal
  | signalingNaN, _ => .error .invalidOperation
  | _, signalingNaN => .error .invalidOperation
  | quietNaN, _ => .ok quietNaN
  | _, quietNaN => .ok quietNaN
  | infinite m, infinite n => if m = n then .ok (infinite m) else .error .invalidOperation
  | infinite m, finite _ _ => .ok (infinite m)
  | finite _ _, infinite n => .ok (infinite n)
  | finite c e, finite d f => addFinite k c e d f

/-- `x * y`, rounded by `k`; an infinity and zero have no product. -/
def mul (k : Context) : Decimal → Decimal → Except Signal Decimal
  | signalingNaN, _ => .error .invalidOperation
  | _, signalingNaN => .error .invalidOperation
  | quietNaN, _ => .ok quietNaN
  | _, quietNaN => .ok quietNaN
  | infinite m, infinite n => .ok (infinite (m != n))
  | infinite m, finite d _ =>
    if d = 0 then .error .invalidOperation else .ok (infinite (m != decide (d < 0)))
  | finite c _, infinite n =>
    if c = 0 then .error .invalidOperation else .ok (infinite (n != decide (c < 0)))
  | finite c e, finite d f => k.round (c * d) (e + f)

/-- `x < y`; a NaN cannot be compared. -/
def lt (x y : Decimal) : Except Signal Bool :=
  match compare? x y with
  | some o => .ok (o == .lt)
  | none => .error .invalidOperation

end Decimal

end QuotaWarden
