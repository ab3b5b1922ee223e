import QuotaWarden.Json.Basic

/-!
# Writing JSON

* `Json.write` is the compact text of a value; control characters, quotes, backslashes and unpaired
  surrogates are escaped.
* `Json.hasText` says whether a value has a JSON text in UTF-8: no infinite fraction, no NaN and no
  unpaired surrogate.
* `Json.nestsWithin` says whether lists and objects nest at most so deep.
-/

namespace QuotaWarden.Json

open Number Text

/-- A code point inside a JSON text. -/
def writePoint (n : Nat) : String :=
  if n = 34 then "\\\""
  else if n = 92 then "\\\\"
  else if n < 32 || isSurrogate n then "\\u" ++ hexDigits 4 n
  else String.ofList [Char.ofNat n]

def writeText (s : String) : String := "\"" ++ String.join ((toPoints s).map writePoint) ++ "\""

/-- The words for the values of a double that no number can be written for. -/
def jsonStyle : FloatStyle := { plainStyle with infinity := "Infinity", nan := "NaN" }

mutual

/-- The compact text of a value, where `jsonStyle` writes the doubles. -/
def write : Json → String
  | null => "null"
  | bool b => if b then "true" else "false"
  | int n => toString n
  | float x => writeBinary jsonStyle (.ofFloat x)
  | str s => writeText s
  | arr items => "[" ++ ",".intercalate (writeItems items) ++ "]"
  | obj fields => "\x7b" ++ ",".intercalate (writeFields fields) ++ "\x7d"

def writeItems : List Json → List String
  | [] => []
  | v :: r => write v :: writeItems r

def writeFields : List (String × Json) → List String
  | [] => []
  | (n, v) :: r => (writeText n ++ ":" ++ write v) :: writeFields r

end

mutual

/-- Whether a value has a JSON text in UTF-8. -/
def hasText : Json → Bool
  | float x =>
    match Binary.ofFloat x with
    | .finite _ _ _ => true
    | _ => false
  | str s => !hasSurrogate s
  | arr items => haveText items
  | obj fields => fieldsHaveText fields
  | _ => true

def haveText : List Json → Bool
  | [] => true
  | v :: r => hasText v && haveText r

def fieldsHaveText : List (String × Json) → Bool
  | [] => true
  | (n, v) :: r => !hasSurrogate n && hasText v && fieldsHaveText r

end

mutual

/-- Whether the lists and objects of a value nest at most so deep. -/
def nestsWithin (depth : Nat) : Json → Bool
  | arr items => 0 < depth && nestWithin (depth - 1) items
  | obj fields => 0 < depth && fieldsNestWithin (depth - 1) fields
  | _ => true

def nestWithin (depth : Nat) : List Json → Bool
  | [] => true
  | v :: r => nestsWithin depth v && nestWithin depth r

def fieldsNestWithin (depth : Nat) : List (String × Json) → Bool
  | [] => true
  | (_, v) :: r => nestsWithin depth v && fieldsNestWithin depth r

end

end QuotaWarden.Json
