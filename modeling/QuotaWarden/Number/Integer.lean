import QuotaWarden.Text.Blank
import QuotaWarden.Text.Digit

/-!
# Texts of integers

An integer is written in decimal digits of any script, with an optional sign and single underscores
between digits, and white space around it. No text of an integer, read or written, has more than
`digitLimit` digits.

* `readInteger?` reads an integer, `writeInteger?` writes one.
-/

namespace QuotaWarden.Number

open QuotaWarden.Text

/-- The most digits that the text of an integer may have. -/
def digitLimit : Nat := 4300

/-- The rest of a row of digits: digits, each after at most one underscore. -/
def moreDigits? : List Char → Option (List Nat)
  | [] => some []
  | '_' :: c :: r => do
    let d ← digitValue? c
    let ds ← moreDigits? r
    return d :: ds
  | c :: r => do
    let d ← digitValue? c
    let ds ← moreDigits? r
    return d :: ds

/-- A row of at least one digit, with single underscores between digits. -/
def digits? : List Char → Option (List Nat)
  | [] => none
  | c :: r => do
    let d ← digitValue? c
    let ds ← moreDigits? r
    return d :: ds

/-- Splits a sign off: whether it is a minus, and what follows. -/
def splitSign : List Char → Bool × List Char
  | '-' :: r => (true, r)
  | '+' :: r => (false, r)
  | r => (false, r)

def signed (negative : Bool) (n : Nat) : Int := if negative then -(n : Int) else n

/-- The integer that `s` writes: a sign and at most `digitLimit` digits. -/
def readInteger? (s : String) : Option Int := do
  let (negative, body) := splitSign (trim isSpace s.toList)
  let ds ← digits? body
  guard (ds.length ≤ digitLimit)
  return signed negative (digitsValue ds)

/-- The number of decimal digits of `n`; zero has one. -/
def digitCount (n : Nat) : Nat :=
  if n < 10 then 1 else digitCount (n / 10) + 1

/-- The text of an integer, if it is not too long. -/
def writeInteger? (n : Int) : Option String :=
  if digitCount n.natAbs ≤ digitLimit then some (toString n) else none

theorem digitCount_pos (n : Nat) : 0 < digitCount n := by
  unfold digitCount
  split <;> omega

theorem lt_pow_digitCount (n : Nat) : n < tenTo (digitCount n) := by
  fun_induction digitCount n with
  | case1 n h => exact h
  | case2 n h ih =>
    rw [tenTo_succ]
    omega

theorem pow_digitCount_le {n : Nat} (h : n ≠ 0) : tenTo (digitCount n - 1) ≤ n := by
  fun_induction digitCount n with
  | case1 n h' => simp; omega
  | case2 n h' ih =>
    have hp := digitCount_pos (n / 10)
    have := ih (by omega)
    have e : digitCount (n / 10) + 1 - 1 = (digitCount (n / 10) - 1) + 1 := by omega
    rw [e, tenTo_succ]
    omega

theorem digitCount_le_of_lt_pow {n k : Nat} (hk : 0 < k) (h : n < tenTo k) : digitCount n ≤ k := by
  rcases Nat.eq_zero_or_pos n with rfl | hn
  · rw [digitCount, if_pos (by decide)]
    omega
  · have := pow_digitCount_le (Nat.ne_of_gt hn)
    have hlt : tenTo (digitCount n - 1) < tenTo k := by omega
    have := tenTo_lt_iff.1 hlt
    omega

end QuotaWarden.Number
