import QuotaWarden.Decimal.Context
import QuotaWarden.Json.Basic

/-!
# Faults

Everything that can go wrong, by cause.

* `Fault` is the cause, `Fault.kind` the family it belongs to, `Fault.message` its wording.
* Some steps go on after a family of faults and not after others: `Fault.isBadValue`,
  `Fault.refusal?` and `Fault.isReconcileFailure` are the families that are told apart.
-/

namespace QuotaWarden

/-- The status and reason of a refused API call; either may be null. -/
structure Refusal where
  status : Json
  reason : Json
deriving Inhabited

/-- The status and the reason in one line. -/
def Refusal.text (r : Refusal) : String := r.status.display ++ " " ++ r.reason.display

def Refusal.hasStatus (status : Int) (r : Refusal) : Bool := r.status.same (.int status)

/-- The status of a refusal because the object is not there. -/
def missingStatus : Int := 404

/-- Whether a refusal says that the object is not there. -/
def Refusal.isMissing (r : Refusal) : Bool := r.hasStatus missingStatus

/-- A cause of failure; `Fault.message` is its text and `Fault.kind` its family. -/
inductive Fault where
  /-- The number of a quantity cannot be read. -/
  | badNumber (text : String)
  /-- The unit of a quantity does not exist. -/
  | unknownUnit (text : String)
  /-- A quantity has no value in the range of the arithmetic. -/
  | badQuantity (text : String)
  /-- An operation on decimals stopped. -/
  | signal (s : Signal)
  /-- An integer has too many digits to be written. -/
  | integerTooLong
  /-- An infinite amount was to be written as an integer. -/
  | infiniteInteger
  /-- An infinite binary fraction was to be read as an integer. -/
  | infiniteFraction
  /-- An integer is beyond the largest double. -/
  | integerTooLarge
  /-- Half of an integer is beyond the largest double. -/
  | halfTooLarge
  /-- A value of this kind is no number. -/
  | notANumber (kind : String)
  /-- A value of this kind cannot be halved. -/
  | notHalved (kind : String)
  /-- A NaN was to be written as an integer. -/
  | nanInteger
  /-- No reason for an eviction has this name. -/
  | unknownReason (v : Json)
  /-- A part of an untyped pod is no object. -/
  | notAMapping (part : String)
  /-- The pod itself is no object but a value of another kind. -/
  | podNotAMapping (kind : String)
  /-- A field of a typed object is no text. -/
  | invalidField
  /-- A value of this kind cannot be gone through. -/
  | notIterable (kind : String)
  /-- A field, at its place among the fields, has so many parts instead of a name and a value. -/
  | notAPair (place parts : Nat)
  /-- A value of this kind cannot be a key. -/
  | notAKey (kind : String)
  /-- A value of this kind is no count. -/
  | notACount (kind : String)
  /-- Values of these kinds have no order. -/
  | notOrdered (left right : String)
  /-- A value of this kind has no such field. -/
  | noField (kind field : String)
  /-- An object to be changed is not there. -/
  | missingObject
  /-- An API call was refused. -/
  | refused (r : Refusal)
  /-- A call broke off. -/
  | broken (text : String)
  /-- The pods of a namespace cannot be listed. -/
  | podsNotListed (ns : Json) (r : Refusal)
  /-- A violation remains and the last delete was refused. -/
  | stillViolated (ns : Json) (policy summary : String) (r : Refusal)
  /-- The status of a policy cannot be written. -/
  | statusNotWritten (ns : Json) (policy : String) (r : Refusal)
deriving Inhabited

/-- The families that failures are told apart by. -/
inductive FaultKind where
  | badValue
  | invalidField
  | tooLarge
  | overflow
  | invalidOperation
  | wrongType
  | wrongShape
  | missingObject
  | refused
  | broken
  | enforcement
  | statusUpdate
deriving DecidableEq, Repr

namespace Fault

def kind : Fault → FaultKind
  | badNumber _ | unknownUnit _ | badQuantity _ | integerTooLong | nanInteger | unknownReason _
  | notAMapping _ | podNotAMapping _ | notAPair _ _ => .badValue
  | invalidField => .invalidField
  | infiniteInteger | infiniteFraction | integerTooLarge | halfTooLarge => .tooLarge
  | signal .overflow => .overflow
  | signal .invalidOperation => .invalidOperation
  | notIterable _ | notAKey _ | notACount _ | notANumber _ | notHalved _ | notOrdered _ _ =>
    .wrongType
  | noField _ _ => .wrongShape
  | missingObject => .missingObject
  | refused _ => .refused
  | broken _ => .broken
  | podsNotListed _ _ | stillViolated _ _ _ _ => .enforcement
  | statusNotWritten _ _ _ => .statusUpdate

def message : Fault → String
  | badNumber text => "Invalid number format: " ++ text
  | unknownUnit text => text ++ " has unknown suffix"
  | badQuantity text => "Invalid quantity: " ++ text
  | signal .overflow => "result out of range"
  | signal .invalidOperation => "invalid operation"
  | integerTooLong =>
    "Exceeds the limit (4300 digits) for integer string conversion; " ++
      "use sys.set_int_max_str_digits() to increase the limit"
  | infiniteInteger => "cannot convert Infinity to integer"
  | infiniteFraction => "cannot convert float infinity to integer"
  | integerTooLarge => "int too large to convert to float"
  | halfTooLarge => "integer division result too large for a float"
  | notANumber kind => "must be real number, not " ++ kind
  | notHalved kind => "unsupported operand type(s) for /: '" ++ kind ++ "' and 'int'"
  | nanInteger => "cannot convert NaN to integer"
  | unknownReason v => v.quoted ++ " is not a valid Reason"
  | notAMapping part => part ++ " must be a mapping"
  | podNotAMapping kind => "pod object must be a mapping, got " ++ kind
  | invalidField => "validation error"
  | notIterable kind => "'" ++ kind ++ "' object is not iterable"
  | notAPair place parts =>
    "dictionary update sequence element #" ++ toString place ++ " has length " ++ toString parts ++
      "; 2 is required"
  | notAKey kind => "unhashable type: '" ++ kind ++ "'"
  | notACount kind => "'" ++ kind ++ "' object cannot be interpreted as an integer"
  | notOrdered left right =>
    "'<' not supported between instances of '" ++ left ++ "' and '" ++ right ++ "'"
  | noField kind field => "'" ++ kind ++ "' object has no attribute '" ++ field ++ "'"
  | missingObject => "not found"
  | refused r => r.text
  | broken text => text
  | podsNotListed ns r => "list pods in " ++ ns.display ++ ": " ++ r.text
  | stillViolated ns policy summary r =>
    "namespace " ++ ns.display ++ " still violates " ++ policy ++ " (" ++ summary ++
      "): delete failed: " ++ r.text
  | statusNotWritten ns policy r =>
    "update status of " ++ ns.display ++ "/" ++ policy ++ ": " ++ r.text

/-- The namespace in which a reconcile failed. -/
def ns? : Fault → Option Json
  | podsNotListed ns _ | stillViolated ns _ _ _ | statusNotWritten ns _ _ => some ns
  | _ => none

/-- Whether a value could not be used. -/
def isBadValue (f : Fault) : Bool := f.kind = .badValue || f.kind = .invalidField

/-- Whether a value was bad or of the wrong type. -/
def isUnusable (f : Fault) : Bool := f.isBadValue || f.kind = .wrongType

/-- The refusal of an API call, if that is the fault. -/
def refusal? : Fault → Option Refusal
  | refused r => some r
  | _ => none

/-- Whether enforcement or the status update of a namespace failed. -/
def isReconcileFailure (f : Fault) : Bool := f.kind = .enforcement || f.kind = .statusUpdate

/-- The wording in a sentence about a call: a refusal names its status in brackets, on a line of its
own. -/
def callText : Fault → String
  | refused r => "(" ++ r.status.display ++ ")\nReason: " ++ r.reason.display
  | f => f.message

end Fault

/-- An arithmetic signal is a fault. -/
def liftSignal : Except Signal α → Except Fault α
  | .ok x => .ok x
  | .error s => .error (.signal s)

end QuotaWarden
