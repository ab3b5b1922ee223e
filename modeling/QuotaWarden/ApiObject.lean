import QuotaWarden.Key
import QuotaWarden.Pod

/-!
# Objects of the cluster API

The API hands over typed objects (pods, namespaces, states of failed watches, lists) and untyped
ones, which are JSON values of any shape.

* `ApiObject.metadata` is what identifies an object: namespace, name and version, each empty if it
  is not given. It fails on an untyped object whose metadata is no object.
* `ApiObject.items` and `ApiObject.listVersion` read an object as the response to a list call.
-/

namespace QuotaWarden

/-- What identifies an object and its version. -/
structure ObjectMeta where
  ns : Json
  name : Json
  version : Json
deriving Inhabited

def ObjectMeta.empty : ObjectMeta := ⟨.str "", .str "", .str ""⟩

/-- An object of the API. -/
inductive ApiObject where
  | pod (p : Pod)
  | ns (name : Option String)
  /-- The state of a watch that failed. -/
  | state (code : Option Int)
  /-- A typed object of another kind, without metadata. -/
  | bare
  /-- A typed list, perhaps with the version of the collection. -/
  | list (items : List ApiObject) (version : Option String)
  /-- An untyped object whose items are objects of the API. -/
  | untypedList (fields : List (String × Json)) (items : List ApiObject)
  | untyped (v : Json)
deriving Inhabited

namespace ApiObject

def kindName : ApiObject → String
  | pod _ => "V1Pod"
  | ns _ => "V1Namespace"
  | state _ => "V1Status"
  | list _ _ => "V1List"
  | bare => "object"
  | untypedList _ _ => "dict"
  | untyped v => v.kindName

/-- A field as it counts: empty if it is not given. -/
def given (name : String) (fields : List (String × Json)) : Json :=
  (Json.ofOption (field? name fields)).orElse (.str "")

/-- A text as it counts: empty if it is missing. -/
def textOrEmpty (s : Option String) : Json := .str (s.getD "")

/-- The metadata of an untyped object. -/
def untypedMetadata (fields : List (String × Json)) : Except Fault (List (String × Json)) :=
  match (Json.ofOption (field? "metadata" fields)).orElse (.obj []) with
  | .obj inner => .ok inner
  | v => .error (.noField v.kindName "get")

/-- What identifies an untyped object. -/
def identify (fields : List (String × Json)) : Except Fault ObjectMeta := do
  let inner ← untypedMetadata fields
  return ⟨given "namespace" inner, given "name" inner, given "resourceVersion" inner⟩

/-- What identifies an object; a value that is no object is not identified by anything. -/
def metadata : ApiObject → Except Fault ObjectMeta
  | pod p =>
    match p.metadata with
    | some m => .ok ⟨textOrEmpty m.ns, textOrEmpty m.name, textOrEmpty m.resourceVersion⟩
    | none => .ok .empty
  | ns name => .ok ⟨.str "", textOrEmpty name, .str ""⟩
  | list _ (some _) => .error (.noField "V1ListMeta" "namespace")
  | untyped (.obj fields) => identify fields
  | untypedList fields _ => identify fields
  | _ => .ok .empty

def items : ApiObject → Except Fault (List ApiObject)
  | list items _ => .ok items
  | untypedList _ items => .ok items
  | untyped (.obj fields) =>
    let v := (Json.ofOption (field? "items" fields)).orElse (.arr [])
    match v.iterate? with
    | some vs => .ok (vs.map untyped)
    | none => .error (.notIterable v.kindName)
  | o => .error (.noField o.kindName "items")

/-- The version of the collection in an untyped response. -/
def untypedVersion (fields : List (String × Json)) : Except Fault Json := do
  return given "resourceVersion" (← untypedMetadata fields)

/-- The version of the collection that a response to a list call tells. -/
def listVersion : ApiObject → Except Fault Json
  | list _ version => .ok (textOrEmpty version)
  | pod p => .ok (textOrEmpty (p.metadata.bind (·.resourceVersion)))
  | untyped (.obj fields) => untypedVersion fields
  | untypedList fields _ => untypedVersion fields
  | _ => .ok (.str "")

/-- The status code that an object tells. -/
def code : ApiObject → Json
  | state code => Json.ofOption (code.map .int)
  | untyped (.obj fields) => Json.ofOption (field? "code" fields)
  | untypedList fields _ => Json.ofOption (field? "code" fields)
  | _ => .null

/-- The state of a failed watch, field by field. -/
def stateText (code : Option Int) : String :=
  "api_version=None code=" ++ (Json.ofOption (code.map .int)).quoted ++
    " details=None kind=None message=None metadata=None reason=None status=None"

/-- A part of a typed object: a part that is given opens a line of its own with its first field. -/
def partText (firstField : String) (isGiven : Bool) : String :=
  if isGiven then "\x7b" ++ Text.quote firstField ++ ": None,\n" else "None"

/-- A pod, part by part. -/
def podText (p : Pod) : String :=
  "api_version=None kind=None metadata=" ++ partText "annotations" p.metadata.isSome ++
    " spec=" ++ partText "active_deadline_seconds" p.spec.isSome ++
    " status=" ++ partText "allocated_resources" p.status.isSome

/-- A typed object inside another one opens a line of its own with its first field. -/
def innerText : String := partText "api_version" true

/-- A typed list whose items have these forms. -/
def listText (items : List String) (version : Option String) : String :=
  "namespace(items=[" ++ ", ".intercalate items ++ "], metadata=" ++
    partText "remaining_item_count" version.isSome ++ ")"

/-- The fields of an untyped object whose items have these forms. -/
def quotedFields (fields : List (String × Json)) (items : List String) : List String :=
  fields.map fun (name, v) => Text.quote name ++ ": " ++
    (if name = "items" then "[" ++ ", ".intercalate items ++ "]" else v.quoted)

mutual

def quoted : ApiObject → String
  | untyped v => v.quoted
  | untypedList fields items =>
    "\x7b" ++ ", ".intercalate (quotedFields fields (quotedItems items)) ++ "\x7d"
  | bare => "namespace()"
  | list items version => listText (quotedItems items) version
  | pod _ => innerText
  | ns _ => innerText
  | state _ => innerText

def quotedItems : List ApiObject → List String
  | [] => []
  | o :: r => quoted o :: quotedItems r

end

/-- An object in log lines. -/
def display : ApiObject → String
  | untyped v => v.display
  | state code => stateText code
  | pod p => podText p
  | o => o.quoted

end ApiObject

/-- The namespace and the name by which an object is found. -/
structure ObjectKey where
  ns : Key
  name : Key
deriving Repr, Inhabited

namespace ObjectKey

instance : BEq ObjectKey := ⟨fun j k => j.ns == k.ns && j.name == k.name⟩

theorem beq_iff {j k : ObjectKey} :
    (j == k) = true ↔ (j.ns == k.ns) = true ∧ (j.name == k.name) = true := Bool.and_eq_true_iff

instance : EquivBEq ObjectKey where
  symm h := beq_iff.2 ⟨BEq.symm (beq_iff.1 h).1, BEq.symm (beq_iff.1 h).2⟩
  trans h h' :=
    beq_iff.2 ⟨BEq.trans (beq_iff.1 h).1 (beq_iff.1 h').1,
      BEq.trans (beq_iff.1 h).2 (beq_iff.1 h').2⟩
  rfl := beq_iff.2 ⟨BEq.refl _, BEq.refl _⟩

/-- The order by namespace, then by name; names of two namespaces are not compared. -/
def before (j k : ObjectKey) : Except Fault Bool :=
  if j.ns == k.ns then j.name.before k.name else j.ns.before k.ns

/-- The key of `m.ns` and `m.name`, unless one of them is no `Key`. -/
def ofMeta (m : ObjectMeta) : Except Fault ObjectKey := do
  let ns ← Key.ofJson m.ns
  let name ← Key.ofJson m.name
  return ⟨ns, name⟩

end ObjectKey

end QuotaWarden
