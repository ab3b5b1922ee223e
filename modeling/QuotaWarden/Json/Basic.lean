import QuotaWarden.Dictionary
import QuotaWarden.Number.Shortest
import QuotaWarden.Text.Quoted

/-!
# JSON values

Reviews, policies and other untyped objects are JSON values. Integers and fractions are told apart,
an object keeps its fields in the order in which their names first appeared, and a text may hold
unpaired surrogates (`Text.ofPoints`).

* `field?` reads a field, `Json.truthy` says whether a value counts as given, `Json.orElse` puts a
  default in the place of one that does not.
* `Json.same` compares values; numbers are compared by value.
* `Json.display` and `Json.quoted` are the forms of a value in log lines.
-/

namespace QuotaWarden

open Number Text

/-- A JSON value; the fields of an object are a `Dictionary`. -/
inductive Json where
  | null
  | bool (b : Bool)
  | int (n : Int)
  | float (x : Float)
  | str (s : String)
  | arr (items : List Json)
  | obj (fields : List (String × Json))
deriving Inhabited

abbrev setField (name : String) (value : α) (fields : List (String × α)) : List (String × α) :=
  Dictionary.set name value fields

abbrev field? (name : String) (fields : List (String × α)) : Option α := Dictionary.get? name fields

namespace Json

def kindName : Json → String
  | null => "NoneType"
  | bool _ => "bool"
  | int _ => "int"
  | float _ => "float"
  | str _ => "str"
  | arr _ => "list"
  | obj _ => "dict"

def isZero (x : Float) : Bool :=
  match Binary.ofFloat x with
  | .finite _ m _ => m = 0
  | _ => false

/-- Whether a value counts as given: not null, false, zero or empty. -/
def truthy : Json → Bool
  | null => false
  | bool b => b
  | int n => n ≠ 0
  | float x => !isZero x
  | str s => s ≠ ""
  | arr items => !items.isEmpty
  | obj fields => !fields.isEmpty

/-- The value if it counts as given, else the default. -/
def orElse (v default : Json) : Json := if v.truthy then v else default

/-- A missing value is null. -/
def ofOption : Option Json → Json
  | some v => v
  | none => null

/-- A text as a value; a missing one is null. -/
def ofText (s : Option String) : Json := ofOption (s.map str)

/-- The exact number that a boolean, an integer or a double is. -/
def number? : Json → Option Decimal
  | bool b => some (.ofInt (if b then 1 else 0))
  | int n => some (.ofInt n)
  | float x => some (Binary.ofFloat x).toDecimal
  | _ => none

/-- Whether two numbers are equal; a NaN is unequal to all. -/
def sameNumber (x y : Decimal) : Bool := Decimal.compare? x y == some .eq

mutual

/-- Whether two values are equal; numbers by value, objects whatever the order of their fields. -/
def same : Json → Json → Bool
  | null, null => true
  | str s, str t => s = t
  | arr xs, arr ys => sameItems xs ys
  | obj fs, obj gs => fs.length = gs.length && sameFields fs gs
  | v, w =>
    match number? v, number? w with
    | some x, some y => sameNumber x y
    | _, _ => false

def sameItems : List Json → List Json → Bool
  | [], [] => true
  | x :: xs, y :: ys => same x y && sameItems xs ys
  | _, _ => false

/-- Whether every field of the first object has an equal in the second. -/
def sameFields : List (String × Json) → List (String × Json) → Bool
  | [], _ => true
  | (n, v) :: fs, gs =>
    (match field? n gs with
      | some w => same v w
      | none => false) && sameFields fs gs

end

@[simp] theorem same_str (s t : String) : same (str s) (str t) = decide (s = t) := by
  simp [same]

def boolText (b : Bool) : String := if b then "True" else "False"

mutual

/-- The form of a value inside another one: texts are quoted. -/
def quoted : Json → String
  | null => "None"
  | bool b => boolText b
  | int n => toString n
  | float x => writeFloat x
  | str s => quote s
  | arr items => "[" ++ ", ".intercalate (quotedItems items) ++ "]"
  | obj fields => "\x7b" ++ ", ".intercalate (quotedFields fields) ++ "\x7d"

def quotedItems : List Json → List String
  | [] => []
  | v :: r => quoted v :: quotedItems r

def quotedFields : List (String × Json) → List String
  | [] => []
  | (n, v) :: r => (quote n ++ ": " ++ quoted v) :: quotedFields r

end

/-- The form of a value by itself: a text is shown as it is. -/
def display : Json → String
  | str s => s
  | v => quoted v

/-- The items of a text when it is gone through like a list: its characters. -/
def charItems (s : String) : List Json := (toPoints s).map fun n => str (ofPoints [n])

/-- The values that going through a value gives: the items of a list, the names of an object's
fields, the characters of a text. -/
def iterate? : Json → Option (List Json)
  | arr items => some items
  | obj fields => some (fields.map fun f => str f.1)
  | str s => some (charItems s)
  | _ => none

end Json

end QuotaWarden
