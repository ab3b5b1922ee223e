import QuotaWarden.Text.Printable
import QuotaWarden.Text.Surrogate

/-!
# Quoted text

The quoted form of a text, in which log lines show a value that could not be used. A text stands in
single quotes, or in double quotes when it holds a single quote and no double one. The quote in use
and the backslash are escaped, line and tab characters have short escapes, and a code point that
does not print is written by its number in two, four or eight hexadecimal digits.

* `quote` is the quoted form, `escape` the form of one code point in it.
-/

namespace QuotaWarden.Text

/-- The hexadecimal digits of `n`, padded to `width`. -/
def hexDigits (width n : Nat) : String :=
  let ds := Nat.toDigits 16 n
  String.ofList (List.replicate (width - ds.length) '0' ++ ds)

/-- A code point inside quotes. -/
def escape (quotation : Char) (n : Nat) : String :=
  if n = quotation.toNat || n = 92 then String.ofList ['\\', Char.ofNat n]
  else if n = 9 then "\\t"
  else if n = 10 then "\\n"
  else if n = 13 then "\\r"
  else if isPrintable n then String.ofList (carry n)
  else if n ≤ 0xFF then "\\x" ++ hexDigits 2 n
  else if n ≤ 0xFFFF then "\\u" ++ hexDigits 4 n
  else "\\U" ++ hexDigits 8 n

def quotationMark (points : List Nat) : Char :=
  if points.contains 39 && !points.contains 34 then '"' else '\''

def quote (s : String) : String :=
  let points := toPoints s
  let q := quotationMark points
  String.ofList [q] ++ String.join (points.map (escape q)) ++ String.ofList [q]

end QuotaWarden.Text
