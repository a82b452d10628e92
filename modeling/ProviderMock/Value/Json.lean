import ProviderMock.Conversion
import ProviderMock.Json.Text

/-!
# Values as JSON

* **writing** — `Value.toJson` forgets types: nulls and unknowns become null, lists and sets arrays,
  maps and objects JSON objects. A number that is not finite becomes null too.
* **reading at a type** — `Value.decode` follows the type. Null is a null of every type, and an
  attribute that is absent is a null of its type. Under `dynamic` the type is found from the data.
* **reading without a type** — `Value.infer` makes arrays lists of the type of their first element
  that is not null, to which every element must convert.

A failure says where in the JSON it is: the first part that fails, in order.
-/

namespace ProviderMock

/-- Why a JSON tree is not read as a value. -/
inductive DecodeCause where
  | stringRequired
  | numberRequired
  | boolRequired
  | listRequired
  | setRequired
  | mapRequired
  | objectRequired
  /-- a member that the object type does not have -/
  | unsupportedAttribute (name : String)
  /-- an element that does not convert to the type of the list -/
  | mixedList (elementType : Ty)

/-- What is said about a cause. -/
def DecodeCause.message : DecodeCause → String
  | .stringRequired => "string required"
  | .numberRequired => "number required"
  | .boolRequired => "bool required"
  | .listRequired => "list required"
  | .setRequired => "set required"
  | .mapRequired => "map required"
  | .objectRequired => "object required"
  | .unsupportedAttribute name => "unsupported attribute " ++ Text.quote name
  | .mixedList elementType => "list elements must all be " ++ elementType.friendlyName

/-- A failed reading: the place in the JSON, and what is wrong there. -/
structure DecodeError where
  path : Path
  cause : DecodeCause

namespace DecodeError

/-- A failure at the root. -/
def here (cause : DecodeCause) : DecodeError := ⟨Path.root, cause⟩

/-- A failure in a part, seen from the whole. -/
def within (step : PathStep) (e : DecodeError) : DecodeError := { e with path := step :: e.path }

/-- The place, unless it is the root, and what is wrong there. -/
def display (e : DecodeError) : String :=
  match e.path with
  | [] => e.cause.message
  | path => "at " ++ Path.display path ++ ": " ++ e.cause.message

end DecodeError

namespace Value

/-! ## Writing -/

mutual

/-- The JSON of a value. -/
def toJson : Value → Json
  | .null _ => .null
  | .unknown _ => .null
  | .string s => .string s
  | .number x => Json.ofDouble x
  | .bool b => .bool b
  | .list _ elements => .array (elementsToJson elements)
  | .set _ elements => .array (elementsToJson elements)
  | .map _ entries => Json.ofMembers (fieldsToJson entries)
  | .object fields => Json.ofMembers (fieldsToJson fields)
termination_by structural value => value

/-- The JSON of each value. -/
def elementsToJson : List Value → List Json
  | [] => []
  | value :: rest => toJson value :: elementsToJson rest
termination_by structural values => values

/-- The JSON of the value of each field, under its name. -/
def fieldsToJson : List (String × Value) → List (String × Json)
  | [] => []
  | (name, value) :: rest => (name, toJson value) :: fieldsToJson rest
termination_by structural fields => fields

end

/-- Elements are written one by one. -/
theorem elementsToJson_eq_map (elements : List Value) :
    elementsToJson elements = elements.map toJson := by
  induction elements with
  | nil => rfl
  | cons v rest ih => rw [elementsToJson, ih, List.map_cons]

/-- The values of fields are written one by one. -/
theorem fieldsToJson_eq_mapValues (fields : List (String × Value)) :
    fieldsToJson fields = Fields.mapValues toJson fields := by
  induction fields with
  | nil => rfl
  | cons field rest ih =>
    obtain ⟨name, v⟩ := field
    rw [fieldsToJson, ih]
    rfl

/-! ## Reading without a type -/

/-- The type of the first value that is not null. -/
def commonType (values : List Value) : Ty := firstType (values.filter fun v => !v.isNull)

/-- Convert elements to one type from position `start` on; the first that does not convert is where
the list is mixed. -/
def unify (elementType : Ty) (start : Nat) : List Value → Except DecodeError (List Value)
  | [] => .ok []
  | v :: rest =>
    match v.convert elementType with
    | .error _ => .error ⟨[.index start], .mixedList elementType⟩
    | .ok w => do
      let ws ← unify elementType (start + 1) rest
      return w :: ws

mutual

/-- The value that a JSON tree writes, with a type found from the data. -/
def infer : Json → Except DecodeError Value
  | .null => .ok (.null .dynamic)
  | .bool b => .ok (.bool b)
  | .number n => .ok (.number n.toDouble)
  | .string s => .ok (.string s)
  | .array items => do
    let elements ← inferItems 0 items
    let elementType := commonType elements
    return .list elementType (← unify elementType 0 elements)
  | .object members => return .object (← inferMembers members)
termination_by structural json => json

/-- The values of items from position `start` on. -/
def inferItems (start : Nat) : List Json → Except DecodeError (List Value)
  | [] => .ok []
  | item :: rest => do
    let v ← (infer item).mapError (·.within (.index start))
    let vs ← inferItems (start + 1) rest
    return v :: vs
termination_by structural items => items

/-- The values of members, under their names. -/
def inferMembers : List (String × Json) → Except DecodeError (List (String × Value))
  | [] => .ok []
  | (name, item) :: rest => do
    let v ← (infer item).mapError (·.within (.attr name))
    let vs ← inferMembers rest
    return (name, v) :: vs
termination_by structural members => members

end

/-! ## Reading at a type -/

/-- Read items from position `start` on. -/
def decodeItems (decode : Json → Except DecodeError Value) (start : Nat) :
    List Json → Except DecodeError (List Value)
  | [] => .ok []
  | item :: rest => do
    let v ← (decode item).mapError (·.within (.index start))
    let vs ← decodeItems decode (start + 1) rest
    return v :: vs

/-- Read members, keeping their names as keys. -/
def decodeEntries (decode : Json → Except DecodeError Value) :
    List (String × Json) → Except DecodeError (List (String × Value))
  | [] => .ok []
  | (key, item) :: rest => do
    let v ← (decode item).mapError (·.within (.key key))
    let vs ← decodeEntries decode rest
    return (key, v) :: vs

/-- The items of an array. -/
def itemsOr (cause : DecodeCause) : Json → Except DecodeError (List Json)
  | .array items => .ok items
  | _ => .error (.here cause)

/-- The members of an object. -/
def membersOr (cause : DecodeCause) : Json → Except DecodeError (List (String × Json))
  | .object members => .ok members
  | _ => .error (.here cause)

/-- Refuse members that an object type does not have; the first of them is reported. -/
def refuseExtraMembers (attributes : List (String × Ty)) (members : List (String × Json)) :
    Except DecodeError Unit :=
  match members.find? (fun member => !Fields.has attributes member.1) with
  | some (extra, _) => .error (.here (.unsupportedAttribute extra))
  | none => .ok ()

/-- The string that a JSON tree writes. -/
def decodeString : Json → Except DecodeError Value
  | .string s => .ok (.string s)
  | _ => .error (.here .stringRequired)

/-- The number that a JSON tree writes. -/
def decodeNumber : Json → Except DecodeError Value
  | .number n => .ok (.number n.toDouble)
  | _ => .error (.here .numberRequired)

/-- The bool that a JSON tree writes. -/
def decodeBool : Json → Except DecodeError Value
  | .bool b => .ok (.bool b)
  | _ => .error (.here .boolRequired)

/-- A null of the wanted type, and anything else read. -/
def nullOr (want : Ty) (json : Json) (decode : Json → Except DecodeError Value) :
    Except DecodeError Value :=
  match json with
  | .null => .ok (.null want)
  | json => decode json

mutual

/-- The value of the wanted type that a JSON tree writes. -/
def decode : Ty → Json → Except DecodeError Value
  | .dynamic, json => infer json
  | .string, json => nullOr .string json decodeString
  | .number, json => nullOr .number json decodeNumber
  | .bool, json => nullOr .bool json decodeBool
  | .list element, json => nullOr (.list element) json fun json => do
    let items ← itemsOr .listRequired json
    return .list element (← decodeItems (decode element) 0 items)
  | .set element, json => nullOr (.set element) json fun json => do
    let items ← itemsOr .setRequired json
    return setOf element (← decodeItems (decode element) 0 items)
  | .map element, json => nullOr (.map element) json fun json => do
    let members ← membersOr .mapRequired json
    return mapOf element (← decodeEntries (decode element) members)
  | .object attributes, json => nullOr (.object attributes) json fun json => do
    let members ← membersOr .objectRequired json
    refuseExtraMembers attributes members
    return .object (← decodeAttributes attributes members)
termination_by structural want => want

/-- The value of every attribute: what its member writes, or null. -/
def decodeAttributes : List (String × Ty) → List (String × Json) →
    Except DecodeError (List (String × Value))
  | [], _ => .ok []
  | (name, want) :: rest, members => do
    let v ← (decode want ((members.lookup name).getD .null)).mapError (·.within (.attr name))
    let vs ← decodeAttributes rest members
    return (name, v) :: vs
termination_by structural attributes => attributes

end

end Value

end ProviderMock
