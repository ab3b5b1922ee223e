import QuotaWarden.Decimal.Reader
import QuotaWarden.Fault

/-!
# Resource quantities

A quantity is a decimal with an optional unit: `m` is a thousandth, `k` a thousand, `Ki` 1024 and so
on up to `E` and `Ei`.

* `Quantity.read` reads the text of a quantity, `Quantity.ofJson` an untyped value.
* `Quantity.writeCpu` writes cores in whole cores, thousandths or millionths, rounded up.
* `Quantity.writeMemory` writes bytes in the largest unit that divides them.
-/

namespace QuotaWarden

open Number

/-- A unit: a power of a base. -/
structure UnitScale where
  /-- Whether the base is 1024; else it is 1000. -/
  binary : Bool
  power : Int
deriving DecidableEq, Repr

def UnitScale.factor (u : UnitScale) : Decimal :=
  if u.binary then .ofParts (Nat.pow 1024 u.power.toNat) 0 else .ofParts 1 (3 * u.power)

namespace Quantity

/-- The letters of the units and their powers. -/
def unitLetters : List (Char × Int) :=
  [('n', -3), ('u', -2), ('m', -1), ('K', 1), ('k', 1), ('M', 2), ('G', 3), ('T', 4), ('P', 5),
   ('E', 6)]

def unitPower? (c : Char) : Option Int := (unitLetters.find? (·.1 = c)).map (·.2)

/-- Splits the unit off a reversed text: the reversed number and the unit. -/
def splitUnit : List Char → List Char × Option UnitScale
  | 'i' :: c :: r =>
    match unitPower? c with
    | some p => (r, some ⟨true, p⟩)
    | none => ('i' :: c :: r, none)
  | c :: r =>
    match unitPower? c with
    | some p => (r, some ⟨false, p⟩)
    | none => (c :: r, none)
  | [] => ([], none)

/-- Whether a text ends in a binary unit that does not exist: the small ones and `ki`. -/
def endsInFalseUnit : List Char → Bool
  | 'i' :: c :: _ => c = 'n' || c = 'u' || c = 'm' || c = 'k'
  | _ => false

/-- Reads a quantity that is not empty. The number is read before the unit is looked at. -/
def readNonempty (text : String) : Except Fault Decimal :=
  let reversed := text.toList.reverse
  match splitUnit reversed with
  | (number, unit) =>
    let numberText := String.ofList number.reverse
    match Decimal.read? numberText with
    | none => .error (.badNumber numberText)
    | some x =>
      match unit with
      | none => .ok x
      | some u =>
        if endsInFalseUnit reversed then .error (.unknownUnit text)
        else
          match Decimal.mul .working x u.factor with
          | .ok y => .ok y
          | .error _ => .error (.badQuantity text)

/-- Reads a quantity; an empty text is zero. -/
def read (text : String) : Except Fault Decimal :=
  if text = "" then .ok 0 else readNonempty text

/-- The quantity that an untyped value is; a missing one is zero, a number stands for itself. -/
def ofJson : Json → Except Fault Decimal
  | .null => .ok 0
  | .str s => read s
  | v =>
    match v.number? with
    | some x => .ok x
    | none => readNonempty v.display

def writeWhole (c e : Int) : Except Fault String :=
  match Decimal.wholeValue? c e with
  | none => .error .integerTooLong
  | some n =>
    match writeInteger? n with
    | some s => .ok s
    | none => .error .integerTooLong

/-- The fault of writing a special value as an integer. -/
def specialFault : Decimal → Fault
  | .infinite _ => .infiniteInteger
  | .quietNaN => .nanInteger
  | _ => .signal .invalidOperation

/-- Cores as an integer, else in thousandths if these are whole, else in millionths, rounded up. -/
def writeCpu : Decimal → Except Fault String
  | .finite c e =>
    if Decimal.isWhole c e then writeWhole c e
    else do
      let milli ← liftSignal (Context.working.round (c * 1000) e)
      match milli with
      | .finite c' e' =>
        if Decimal.isWhole c' e' then
          return (← writeWhole c' e') ++ "m"
        else
          let micro ← liftSignal (Context.working.round (c * 1000000) e)
          match micro with
          | .finite c'' e'' =>
            let (n, f) := Decimal.ceiling c'' e''
            return (← writeWhole n f) ++ "u"
          | x => .error (specialFault x)
      | x => .error (specialFault x)
  | x => .error (specialFault x)

/-- The units of memory, in the order in which they are tried. -/
def memoryUnits : List (String × Nat) :=
  let binary := Nat.pow 1024
  let decimal := Nat.pow 1000
  [("Ei", binary 6), ("Pi", binary 5), ("Ti", binary 4), ("Gi", binary 3), ("Mi", binary 2),
   ("Ki", binary 1), ("E", decimal 6), ("P", decimal 5), ("T", decimal 4), ("G", decimal 3),
   ("M", decimal 2), ("k", decimal 1)]

/-- Writes a whole number of bytes: zero has no unit. -/
def writeBytes (n : Int) : Except Fault String :=
  if n = 0 then .ok "0"
  else
    let (unit, size) := (memoryUnits.find? fun u => n % u.2 = 0).getD ("", 1)
    match writeInteger? (n / size) with
    | some s => .ok (s ++ unit)
    | none => .error .integerTooLong

/-- Writes bytes, rounded up to a whole number. -/
def writeMemory : Decimal → Except Fault String
  | .finite c e =>
    let (n, f) := Decimal.ceiling c e
    match Decimal.wholeValue? n f with
    | some n => writeBytes n
    | none => .error .integerTooLong
  | x => .error (specialFault x)

end Quantity

end QuotaWarden
