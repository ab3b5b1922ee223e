import QuotaWarden.Fault

/-!
# Keys

Objects are found by the values of their namespace and name. Any value that is no list or object can
be such a key. Keys are compared with `==`, which tells numbers apart by value alone: true, the
integer one and the fraction one are the same key, and yet each is shown in its own form.

* `Key.ofJson` is the key that a value is, `Key.ofText` that of a text, `Key.toJson` the value.
* `Key.plain` is the common form of keys that are the same (`Key.beq_iff`).
* `Key.before` orders keys of one kind: texts by code point, numbers by value.
* `sortOrdered` sorts by an order that may fail; it fails if it meets two members without one.
-/

namespace QuotaWarden

open Number

/-- A value by which objects are found; a fraction is kept by the bits of its double. -/
inductive Key where
  | null
  | bool (b : Bool)
  | int (n : Int)
  | fraction (bits : UInt64)
  | text (s : String)
deriving DecidableEq, Repr, Inhabited

namespace Key

/-- The common form of keys that are the same: a number is an integer if its value is one. -/
def plain : Key → Key
  | bool b => int (if b then 1 else 0)
  | fraction bits =>
    match (Binary.ofBits bits).whole? with
    | some n => int n
    | none => fraction bits
  | k => k

instance : BEq Key := ⟨fun j k => decide (j.plain = k.plain)⟩

theorem beq_iff {j k : Key} : (j == k) = true ↔ j.plain = k.plain := decide_eq_true_iff

instance : EquivBEq Key where
  symm h := beq_iff.2 (beq_iff.1 h).symm
  trans h h' := beq_iff.2 ((beq_iff.1 h).trans (beq_iff.1 h'))
  rfl := beq_iff.2 rfl

@[simp] theorem text_beq_text (s t : String) : (text s == text t) = decide (s = t) := by
  rw [Bool.eq_iff_iff, beq_iff]
  simp [plain]

def ofJson : Json → Except Fault Key
  | .null => .ok null
  | .bool b => .ok (bool b)
  | .int n => .ok (int n)
  | .float x => .ok (fraction x.toBits)
  | .str s => .ok (text s)
  | v => .error (.notAKey v.kindName)

/-- The key that a text is; a missing one is null. -/
def ofText : Option String → Key
  | none => null
  | some s => text s

def toJson : Key → Json
  | null => .null
  | bool b => .bool b
  | int n => .int n
  | fraction bits => .float (Float.ofBits bits)
  | text s => .str s

/-- The name that a key gives to a field of a JSON object. -/
def fieldName : Key → String
  | null => "null"
  | bool b => if b then "true" else "false"
  | k => k.toJson.display

def kindName (k : Key) : String := k.toJson.kindName

def display (k : Key) : String := k.toJson.display

def number? (k : Key) : Option Decimal := k.toJson.number?

/-- Whether a key comes before another one. -/
def before (j k : Key) : Except Fault Bool :=
  match j, k with
  | text s, text t => .ok (decide (s < t))
  | j, k =>
    match j.number?, k.number? with
    | some x, some y => .ok (Decimal.compare? x y == some .lt)
    | _, _ => .error (.notOrdered j.kindName k.kindName)

@[simp] theorem before_text (s t : String) : before (text s) (text t) = .ok (decide (s < t)) := rfl

end Key

/-- Puts an entry in front of the first one that does not come before it. -/
def insertOrdered (before : α → α → Except ε Bool) (x : α) : List α → Except ε (List α)
  | [] => .ok [x]
  | y :: r => do
    if ← before y x then return y :: (← insertOrdered before x r) else return x :: y :: r

/-- Sorts a list by an order that may fail; entries alike keep their order. -/
def sortOrdered (before : α → α → Except ε Bool) : List α → Except ε (List α)
  | [] => .ok []
  | x :: r => do insertOrdered before x (← sortOrdered before r)

/-- The first of the least members of a list, by an order that may fail. -/
def leastOrdered (before : α → α → Except ε Bool) : List α → Except ε (Option α)
  | [] => .ok none
  | x :: r => some <$> r.foldlM (fun best y => do return if ← before y best then y else best) x

end QuotaWarden
