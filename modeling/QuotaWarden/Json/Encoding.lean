import QuotaWarden.Text.Surrogate

/-!
# Encodings of JSON texts

The bytes of a JSON text are UTF-8, UTF-16 or UTF-32. A byte order mark tells which; without one,
the zero bytes among the first four do, because a JSON text opens with two ASCII characters.
Surrogates are let through, paired or not.

* `Encoding.detect` names the encoding, `decode?` gives the code points.
-/

namespace QuotaWarden

inductive Encoding where
  | utf8
  | utf16 (bigEndian : Bool)
  | utf32 (bigEndian : Bool)
deriving DecidableEq, Repr

namespace Encoding

/-- The encoding of a text and its bytes after any byte order mark. -/
def detect : List UInt8 → Encoding × List UInt8
  | 0x00 :: 0x00 :: 0xFE :: 0xFF :: r => (utf32 true, r)
  | 0xFF :: 0xFE :: 0x00 :: 0x00 :: r => (utf32 false, r)
  | 0xFE :: 0xFF :: r => (utf16 true, r)
  | 0xFF :: 0xFE :: r => (utf16 false, r)
  | 0xEF :: 0xBB :: 0xBF :: r => (utf8, r)
  | a :: b :: c :: d :: r =>
    let all := a :: b :: c :: d :: r
    if a = 0 then (if b = 0 then utf32 true else utf16 true, all)
    else if b = 0 then (if c = 0 && d = 0 then utf32 false else utf16 false, all)
    else (utf8, all)
  | [a, b] =>
    if a = 0 then (utf16 true, [a, b]) else if b = 0 then (utf16 false, [a, b]) else (utf8, [a, b])
  | r => (utf8, r)

/-- The payload of a continuation byte. -/
def continuation? (b : UInt8) : Option Nat :=
  if 0x80 ≤ b && b ≤ 0xBF then some (b.toNat - 0x80) else none

/-- Decodes UTF-8: the shortest form of each code point, surrogates included. -/
def decodeUtf8? : List UInt8 → Option (List Nat)
  | [] => some []
  | a :: r =>
    if a < 0x80 then do
      let rest ← decodeUtf8? r
      return a.toNat :: rest
    else if 0xC2 ≤ a && a ≤ 0xDF then
      match r with
      | b :: r => do
        let x ← continuation? b
        let rest ← decodeUtf8? r
        return ((a.toNat - 0xC0) * 64 + x) :: rest
      | _ => none
    else if 0xE0 ≤ a && a ≤ 0xEF then
      match r with
      | b :: c :: r => do
        let x ← continuation? b
        let y ← continuation? c
        let n := (a.toNat - 0xE0) * 4096 + x * 64 + y
        guard (0x800 ≤ n)
        let rest ← decodeUtf8? r
        return n :: rest
      | _ => none
    else if 0xF0 ≤ a && a ≤ 0xF4 then
      match r with
      | b :: c :: d :: r => do
        let x ← continuation? b
        let y ← continuation? c
        let z ← continuation? d
        let n := (a.toNat - 0xF0) * 262144 + x * 4096 + y * 64 + z
        guard (0x10000 ≤ n && n ≤ 0x10FFFF)
        let rest ← decodeUtf8? r
        return n :: rest
      | _ => none
    else none

/-- The 16-bit units of a text. -/
def units16? (bigEndian : Bool) : List UInt8 → Option (List Nat)
  | [] => some []
  | a :: b :: r => do
    let rest ← units16? bigEndian r
    return (if bigEndian then a.toNat * 256 + b.toNat else b.toNat * 256 + a.toNat) :: rest
  | _ => none

/-- Joins a high surrogate and the low one after it. -/
def joinPairs : List Nat → List Nat
  | a :: b :: r =>
    if 0xD800 ≤ a && a ≤ 0xDBFF && 0xDC00 ≤ b && b ≤ 0xDFFF then
      (0x10000 + (a - 0xD800) * 1024 + (b - 0xDC00)) :: joinPairs r
    else a :: joinPairs (b :: r)
  | r => r

def decodeUtf32? (bigEndian : Bool) : List UInt8 → Option (List Nat)
  | [] => some []
  | a :: b :: c :: d :: r => do
    let n :=
      if bigEndian then ((a.toNat * 256 + b.toNat) * 256 + c.toNat) * 256 + d.toNat
      else ((d.toNat * 256 + c.toNat) * 256 + b.toNat) * 256 + a.toNat
    guard (n ≤ 0x10FFFF)
    let rest ← decodeUtf32? bigEndian r
    return n :: rest
  | _ => none

/-- The code points of the bytes of a JSON text. -/
def decode? (bytes : List UInt8) : Option (List Nat) :=
  match detect bytes with
  | (utf8, r) => decodeUtf8? r
  | (utf16 bigEndian, r) => (units16? bigEndian r).map joinPairs
  | (utf32 bigEndian, r) => decodeUtf32? bigEndian r

end Encoding

end QuotaWarden
