import QuotaWarden.Act
import QuotaWarden.Quantity

/-!
# Policies

A policy limits the pods, cores and bytes of a namespace; a limit of zero is not set. A policy
arrives as an untyped object. A limit that cannot be used counts as not set and leaves a warning,
whatever the other limits hold.

* `Policy.ofJson` reads an untyped policy. It is an action on the warnings, so that those that were
  given stay when the reading fails after them.
-/

namespace QuotaWarden

open Number

/-- The limits of a namespace; zero is not set. Name and namespace are as the object gives them. -/
structure Policy where
  name : Json
  ns : Json
  maxPods : Int
  maxCpu : Decimal
  maxMemory : Decimal
deriving Inhabited

/-- The integer that an untyped value is: a fraction loses its places, a text must be an integer. -/
inductive IntegerReading where
  | value (n : Int)
  | unusable
  | infinite

def IntegerReading.ofJson : Json → IntegerReading
  | .bool b => value (if b then 1 else 0)
  | .int n => value n
  | .float x =>
    match Binary.ofFloat x with
    | .infinite _ => infinite
    | b =>
      match b.truncate? with
      | some n => value n
      | none => unusable
  | .str s =>
    match readInteger? s with
    | some n => value n
    | none => unusable
  | _ => unusable

/-- The place of a policy in a warning. -/
def policyLabel (ns name : Json) : String := "Policy " ++ ns.display ++ "/" ++ name.display

/-- The warning about a value that cannot be used. -/
def unusableWarning (label field : String) (v : Json) : String :=
  label ++ ": invalid " ++ field ++ " " ++ v.quoted ++ ", treating as unset"

def warn (text : String) : Act (List String) Unit := Act.change fun warnings => warnings ++ [text]

/-- A value that cannot be used: it counts as zero. -/
def passUnusable [OfNat α 0] (label field : String) (v : Json) : Act (List String) α := do
  warn (unusableWarning label field v)
  return 0

/-- The limit on pods. An infinite number stops the reading of the whole policy. -/
def readMaxPods (label : String) (v : Json) : Act (List String) Int :=
  match v with
  | .null => return 0
  | .str "" => return 0
  | v =>
    match IntegerReading.ofJson v with
    | .infinite => Act.fail .infiniteFraction
    | .unusable => passUnusable label "maxPods" v
    | .value n => do
      if n < 0 then
        warn (label ++ ": negative maxPods " ++ toString n ++ ", treating as unset")
        return 0
      else return n

/-- The quantity that `v` is; one that `isUnusable` counts as zero, with a warning. -/
def readLimit (label field : String) (v : Json) : Act (List String) Decimal :=
  match Quantity.ofJson v with
  | .ok x => return x
  | .error f => if f.isUnusable then passUnusable label field v else Act.fail f

/-- The fields of an object where fields are looked up; another kind of value has none. -/
def mapping (v : Json) : Except Fault (List (String × Json)) :=
  match v with
  | .obj fields => .ok fields
  | v => .error (.noField v.kindName "get")

/-- The policy that `v` describes, with the warnings about its limits. -/
def Policy.ofJson (v : Json) : Act (List String) Policy := do
  let fields ← Act.lift (mapping v)
  let metadata ← Act.lift (mapping ((field? "metadata" fields).getD (.obj [])))
  let name := (field? "name" metadata).getD (.str "")
  let ns := (field? "namespace" metadata).getD (.str "default")
  let spec ← Act.lift (mapping ((Json.ofOption (field? "spec" fields)).orElse (.obj [])))
  let label := policyLabel ns name
  let limit := fun field => Json.ofOption (field? field spec)
  let maxPods ← readMaxPods label (limit "maxPods")
  let maxCpu ← readLimit label "maxCPU" (limit "maxCPU")
  let maxMemory ← readLimit label "maxMemory" (limit "maxMemory")
  return ⟨name, ns, maxPods, maxCpu, maxMemory⟩

end QuotaWarden
