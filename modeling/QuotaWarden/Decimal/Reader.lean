import QuotaWarden.Decimal.Basic

/-!
# Texts of decimal numbers

A decimal is written as digits of any script with an optional sign, point and exponent, or as the
name of a special value; a NaN may carry digits. Blanks around the text and underscores anywhere in
it are skipped. Reading is exact. An exponent that the range of exact decimals cannot hold is
refused.

* `Decimal.read?` reads a text.
-/

namespace QuotaWarden.Decimal

open QuotaWarden.Text QuotaWarden.Number

/-- The largest exponent of the first digit of an exact decimal. -/
def maxExactExponent : Int := 999999999999999999

/-- The least exponent of the last digit of an exact decimal. -/
def minExactExponent : Int := -1999999999999999997

/-- A character of a decimal's text: a digit of any script stands for its value. -/
inductive Glyph where
  | digit (value : Nat)
  | other (c : Char)
deriving DecidableEq

def glyph (c : Char) : Glyph :=
  match digitValue? c with
  | some d => .digit d
  | none => .other c.toLower

/-- The digits at the front, and the rest. -/
def takeDigits : List Glyph → List Nat × List Glyph
  | .digit d :: r => let (ds, rest) := takeDigits r; (d :: ds, rest)
  | r => ([], r)

/-- Whether all that is left are digits. -/
def onlyDigits (gs : List Glyph) : Bool := (takeDigits gs).2.isEmpty

/-- The exponent after a mantissa: nothing, or `e`, an optional sign and digits. -/
def readExponent? : List Glyph → Option Int
  | [] => some 0
  | .other 'e' :: r =>
    let (negative, body) :=
      match r with
      | .other '-' :: r => (true, r)
      | .other '+' :: r => (false, r)
      | r => (false, r)
    match takeDigits body with
    | (d :: ds, []) => some (signed negative (digitsValue (d :: ds)))
    | _ => none
  | _ => none

/-- Whether an exact decimal may have this coefficient and exponent. -/
def inExactRange (n : Nat) (e : Int) : Bool :=
  minExactExponent ≤ e && adjusted n e ≤ maxExactExponent

/-- A number without its sign: digits around an optional point, and an exponent of any size. -/
def readMagnitude? (gs : List Glyph) : Option (Nat × Int) := do
  let (whole, r) := takeDigits gs
  let (fraction, r) :=
    match r with
    | .other '.' :: r => takeDigits r
    | r => ([], r)
  guard (!(whole.isEmpty && fraction.isEmpty))
  let e ← readExponent? r
  return (digitsValue (whole ++ fraction), e - fraction.length)

/-- A number without its sign that an exact decimal can hold. -/
def readNumber? (gs : List Glyph) : Option (Nat × Int) := do
  let (n, e) ← readMagnitude? gs
  guard (inExactRange n e)
  return (n, e)

def word (s : String) : List Glyph := s.toList.map .other

/-- What follows a word at the front. -/
def afterWord? (s : String) (gs : List Glyph) : Option (List Glyph) :=
  if gs.take s.length = word s then some (gs.drop s.length) else none

/-- The special value that a text without its sign names. -/
def readSpecial? (negative : Bool) (gs : List Glyph) : Option Decimal :=
  if gs = word "inf" || gs = word "infinity" then some (infinite negative)
  else
    match afterWord? "nan" gs, afterWord? "snan" gs with
    | some r, _ => if onlyDigits r then some quietNaN else none
    | _, some r => if onlyDigits r then some signalingNaN else none
    | _, _ => none

/-- The decimal that `s` writes, without its blanks at both ends and its underscores. -/
def read? (s : String) : Option Decimal :=
  let body := (trim isBlank s.toList).filter (· != '_')
  let (negative, rest) := splitSign body
  let gs := rest.map glyph
  match readNumber? gs with
  | some (n, e) => some (ofParts (signed negative n) e)
  | none => readSpecial? negative gs

end QuotaWarden.Decimal
