import QuotaWarden.Json.Basic
import QuotaWarden.Json.Encoding

/-!
# Reading JSON

A JSON text is read from its code points. Besides the standard it allows `NaN`, `Infinity` and
`-Infinity`; of two fields with one name the last one counts.

* `Json.read` reads a text, `Json.readBytes` the bytes of one.
* `ReadLimits` bounds how deep lists and objects may nest and how many digits an integer may have.
  Some mistakes inside of lists and objects are themselves told from further down (`mistake`).
-/

namespace QuotaWarden

open Number Text

/-- What is wrong with a JSON text. -/
inductive ReadFailure where
  | malformed
  | tooDeep
deriving DecidableEq, Repr

/-- How much a JSON text may hold. -/
structure ReadLimits where
  depth : Nat
  /-- How much further down a mistake inside of a list or object is told. -/
  told : Nat
  digits : Option Nat

namespace Json

def isJsonBlank (n : Nat) : Bool := n = 32 || n = 9 || n = 10 || n = 13

def skipBlanks (cs : List Nat) : List Nat := cs.dropWhile isJsonBlank

def isDigit (n : Nat) : Bool := 48 ≤ n && n ≤ 57

def hexValue? (n : Nat) : Option Nat :=
  if isDigit n then some (n - 48)
  else if 97 ≤ n && n ≤ 102 then some (n - 87)
  else if 65 ≤ n && n ≤ 70 then some (n - 55)
  else none

/-- A code point of a text, and whether an escape by number wrote it. -/
structure Written where
  point : Nat
  byNumber : Bool

/-- Joins two escapes by number that write the halves of a surrogate pair. -/
def joinEscapes : List Written → List Nat
  | a :: b :: r =>
    if a.byNumber && b.byNumber && 0xD800 ≤ a.point && a.point ≤ 0xDBFF &&
        0xDC00 ≤ b.point && b.point ≤ 0xDFFF then
      (0x10000 + (a.point - 0xD800) * 1024 + (b.point - 0xDC00)) :: joinEscapes r
    else a.point :: joinEscapes (b :: r)
  | [a] => [a.point]
  | [] => []

/-- The character that a short escape stands for. -/
def shortEscape? (n : Nat) : Option Nat :=
  if n = 34 || n = 92 || n = 47 then some n
  else if n = 98 then some 8
  else if n = 102 then some 12
  else if n = 110 then some 10
  else if n = 114 then some 13
  else if n = 116 then some 9
  else none

/-- The characters of a text up to its closing quote, and what follows. -/
def readChars? : List Nat → Option (List Written × List Nat)
  | [] => none
  | 34 :: r => some ([], r)
  | 92 :: 117 :: a :: b :: c :: d :: r => do
    let w ← hexValue? a
    let x ← hexValue? b
    let y ← hexValue? c
    let z ← hexValue? d
    let (cs, rest) ← readChars? r
    return (⟨((w * 16 + x) * 16 + y) * 16 + z, true⟩ :: cs, rest)
  | 92 :: e :: r => do
    let c ← shortEscape? e
    let (cs, rest) ← readChars? r
    return (⟨c, false⟩ :: cs, rest)
  | c :: r => do
    guard (32 ≤ c && c ≠ 92)
    let (cs, rest) ← readChars? r
    return (⟨c, false⟩ :: cs, rest)

/-- The text after an opening quote. -/
def readText? (cs : List Nat) : Option (String × List Nat) := do
  let (ws, rest) ← readChars? cs
  return (ofPoints (joinEscapes ws), rest)

def spanDigits (cs : List Nat) : List Nat × List Nat :=
  ((cs.takeWhile isDigit).map (· - 48), cs.dropWhile isDigit)

/-- The whole part of a number: one zero, or digits that open with another one. -/
def readWhole? : List Nat → Option (List Nat × List Nat)
  | 48 :: r => some ([0], r)
  | cs =>
    match spanDigits cs with
    | ([], _) => none
    | p => some p

/-- A fraction at the front: a point and at least one digit. -/
def readFraction : List Nat → Option (List Nat) × List Nat
  | 46 :: r =>
    match spanDigits r with
    | ([], _) => (none, 46 :: r)
    | (ds, rest) => (some ds, rest)
  | r => (none, r)

/-- An exponent at the front: its mark, an optional sign and at least one digit. -/
def readExponent (cs : List Nat) : Option Int × List Nat :=
  match cs with
  | c :: r =>
    if c = 101 || c = 69 then
      let (negative, body) :=
        match r with
        | 45 :: r => (true, r)
        | 43 :: r => (false, r)
        | r => (false, r)
      match spanDigits body with
      | ([], _) => (none, cs)
      | (ds, rest) => (some (signed negative (digitsValue ds)), rest)
    else (none, cs)
  | [] => (none, [])

/-- A number after its sign: an integer unless it has a fraction or an exponent. -/
def readNumber (limits : ReadLimits) (negative : Bool) (cs : List Nat) :
    Except ReadFailure (Json × List Nat) :=
  match readWhole? cs with
  | none => .error .malformed
  | some (whole, r) =>
    match readFraction r with
    | (fraction, r) =>
      match readExponent r with
      | (exponent, r) =>
        if fraction.isNone && exponent.isNone then
          if limits.digits.all (whole.length ≤ ·) then
            .ok (int (signed negative (digitsValue whole)), r)
          else .error .malformed
        else
          let ds := fraction.getD []
          .ok (float (ofDecimalParts negative (digitsValue (whole ++ ds))
            (exponent.getD 0 - ds.length)), r)

def word (s : String) : List Nat := s.toList.map Char.toNat

/-- The words that stand for values. -/
def wordValues : List (List Nat × Json) :=
  [(word "null", null), (word "true", bool true), (word "false", bool false),
   (word "NaN", float (0.0 / 0.0)), (word "Infinity", float (1.0 / 0.0)),
   (word "-Infinity", float (-1.0 / 0.0))]

def readWord? (cs : List Nat) : Option (Json × List Nat) :=
  (wordValues.find? fun p => p.1.isPrefixOf cs).map fun p => (p.2, cs.drop p.1.length)

/-- A mistake where the nesting may go on by `depth`: in a text, in the name of a field, or around a
mark between two parts. -/
def mistake (limits : ReadLimits) (depth : Nat) : ReadFailure :=
  if depth < limits.told then .tooDeep else .malformed

/-- A value that is no list or object. -/
def readLeaf (limits : ReadLimits) (depth : Nat) (cs : List Nat) :
    Except ReadFailure (Json × List Nat) :=
  match readWord? cs with
  | some p => .ok p
  | none =>
    match cs with
    | 34 :: r =>
      match readText? r with
      | some (s, rest) => .ok (str s, rest)
      | none => .error (mistake limits depth)
    | 45 :: r => readNumber limits true r
    | _ => readNumber limits false cs

mutual

/-- A value at the front, and what follows it. -/
def readValue (limits : ReadLimits) :
    Nat → Nat → List Nat → Except ReadFailure (Json × List Nat)
  | 0, _, _ => .error .malformed
  | fuel + 1, depth, 91 :: r =>
    match depth with
    | 0 => .error .tooDeep
    | depth + 1 =>
      match skipBlanks r with
      | 93 :: r => .ok (arr [], r)
      | r =>
        match readItems limits fuel depth r with
        | .ok (items, rest) => .ok (arr items, rest)
        | .error e => .error e
  | fuel + 1, depth, 123 :: r =>
    match depth with
    | 0 => .error .tooDeep
    | depth + 1 =>
      match skipBlanks r with
      | 125 :: r => .ok (obj [], r)
      | r =>
        match readFields limits fuel depth r [] with
        | .ok (fields, rest) => .ok (obj fields, rest)
        | .error e => .error e
  | _ + 1, depth, cs => readLeaf limits depth cs

/-- The items of a list from the next one to the closing bracket, and what follows. -/
def readItems (limits : ReadLimits) :
    Nat → Nat → List Nat → Except ReadFailure (List Json × List Nat)
  | 0, _, _ => .error .malformed
  | fuel + 1, depth, cs =>
    match readValue limits fuel depth cs with
    | .error e => .error e
    | .ok (v, r) =>
      match skipBlanks r with
      | 93 :: r => .ok ([v], r)
      | 44 :: r =>
        match readItems limits fuel depth (skipBlanks r) with
        | .ok (vs, rest) => .ok (v :: vs, rest)
        | .error e => .error e
      | _ => .error (mistake limits depth)

/-- The fields of an object, added to those read before, up to the closing brace. -/
def readFields (limits : ReadLimits) :
    Nat → Nat → List Nat → List (String × Json) →
      Except ReadFailure (List (String × Json) × List Nat)
  | 0, _, _, _ => .error .malformed
  | fuel + 1, depth, 34 :: r, before =>
    match readText? r with
    | none => .error (mistake limits depth)
    | some (name, r) =>
      match skipBlanks r with
      | 58 :: r =>
        match readValue limits fuel depth (skipBlanks r) with
        | .error e => .error e
        | .ok (v, r) =>
          let fields := setField name v before
          match skipBlanks r with
          | 125 :: r => .ok (fields, r)
          | 44 :: r => readFields limits fuel depth (skipBlanks r) fields
          | _ => .error (mistake limits depth)
      | _ => .error (mistake limits depth)
  | _ + 1, depth, _, _ => .error (mistake limits depth)

end

/-- The value that code points write, within `limits` and with blanks around it only. -/
def read (limits : ReadLimits) (points : List Nat) : Except ReadFailure Json :=
  match readValue limits (2 * points.length + 2) limits.depth (skipBlanks points) with
  | .error e => .error e
  | .ok (v, r) => if (skipBlanks r).isEmpty then .ok v else .error .malformed

def readBytes (limits : ReadLimits) (bytes : List UInt8) : Except ReadFailure Json :=
  match Encoding.decode? bytes with
  | some points => read limits points
  | none => .error .malformed

end Json

end QuotaWarden
