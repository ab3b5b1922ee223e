import QuotaWarden.Decimal.Reader
import QuotaWarden.Number.Binary

/-!
# Texts of binary fractions

A fraction is written with an optional sign, as digits of any script around an optional point and
with an optional exponent, or as one of the words for infinity and for no number. Single underscores
may stand between digits, and white space around the whole.

* `readNumeral?` reads such a text; what it says is a `Numeral`.
* `Numeral.toFloat` is the double nearest to it.
-/

namespace QuotaWarden.Number

open QuotaWarden.Text

/-- What the text of a fraction says. -/
inductive Numeral where
  | finite (negative : Bool) (coefficient : Nat) (exponent : Int)
  | infinite (negative : Bool)
  | nan
deriving DecidableEq, Repr

def isDigit (c : Char) : Bool := (digitValue? c).isSome

/-- Drops underscores that stand between two digits; no others may be there. -/
def joinDigits? : Bool → List Char → Option (List Char)
  | _, [] => some []
  | _, ['_'] => none
  | afterDigit, '_' :: c :: r =>
    if afterDigit && isDigit c then (c :: ·) <$> joinDigits? true r else none
  | _, c :: r => (c :: ·) <$> joinDigits? (isDigit c) r

def readUnsigned? (negative : Bool) (gs : List Decimal.Glyph) : Option Numeral :=
  match Decimal.readMagnitude? gs with
  | some (n, e) => some (.finite negative n e)
  | none =>
    if gs = Decimal.word "inf" || gs = Decimal.word "infinity" then some (.infinite negative)
    else if gs = Decimal.word "nan" then some .nan
    else none

def readNumeral? (s : String) : Option Numeral := do
  let body ← joinDigits? false (trim isSpace s.toList)
  let (negative, rest) := splitSign body
  readUnsigned? negative (rest.map Decimal.glyph)

def Numeral.toFloat : Numeral → Float
  | finite negative n e => ofDecimalParts negative n e
  | infinite negative => if negative then -(1.0 / 0.0) else 1.0 / 0.0
  | nan => 0.0 / 0.0

end QuotaWarden.Number
