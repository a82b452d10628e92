import ProviderMock.Ty
import ProviderMock.Json.Text
import ProviderMock.Text.Quoted

/-!
# Types as JSON

The notation of types in provider schemas. A primitive type is its name, a collection type is an
array of the kind and the element type, and an object type is an array of `"object"` and a JSON
object with the types of the attributes. `Ty.toJson` writes the notation and `Ty.ofJson` reads it.
-/

namespace ProviderMock

/-- Why a JSON tree is no type. -/
inductive TyError where
  /-- a string that names no primitive type -/
  | unknownPrimitive (name : String)
  /-- an array of two whose first item is no string -/
  | kindNotString (kind : Json)
  /-- an object type whose attributes are no JSON object -/
  | attributesNotObject
  /-- an array of two whose first item names no kind -/
  | unknownKind (name : String)
  /-- neither a string nor an array of two -/
  | malformed (json : Json)

/-- What is said about JSON that is no type. -/
def TyError.message (e : TyError) : String :=
  "invalid type specification: " ++
    match e with
    | .unknownPrimitive name => "unknown primitive type " ++ Text.quote name
    | .kindNotString kind => "type kind must be a string, got " ++ kind.text
    | .attributesNotObject => "object attribute types must be a JSON object"
    | .unknownKind name => "unknown type kind " ++ Text.quote name
    | .malformed json => json.text

namespace Ty

mutual

/-- The JSON of a type. -/
def toJson : Ty → Json
  | .string => .string "string"
  | .number => .string "number"
  | .bool => .string "bool"
  | .dynamic => .string "dynamic"
  | .list e => .array [.string "list", toJson e]
  | .set e => .array [.string "set", toJson e]
  | .map e => .array [.string "map", toJson e]
  | .object attributes => .array [.string "object", Json.ofMembers (attributesToJson attributes)]
termination_by structural ty => ty

/-- The JSON of the types of attributes, under their names. -/
def attributesToJson : List (String × Ty) → List (String × Json)
  | [] => []
  | (name, t) :: rest => (name, toJson t) :: attributesToJson rest
termination_by structural attributes => attributes

end

/-- The types of attributes are written one by one. -/
theorem attributesToJson_eq_mapValues (attributes : List (String × Ty)) :
    attributesToJson attributes = Fields.mapValues toJson attributes := by
  induction attributes with
  | nil => rfl
  | cons first rest ih =>
    obtain ⟨name, t⟩ := first
    rw [attributesToJson, ih]
    rfl

/-- The primitive type of a name. -/
def ofName (name : String) : Except TyError Ty :=
  match name with
  | "string" => .ok .string
  | "number" => .ok .number
  | "bool" => .ok .bool
  | "dynamic" => .ok .dynamic
  | _ => .error (.unknownPrimitive name)

mutual

/-- The type that a JSON tree writes. -/
def ofJson : Json → Except TyError Ty
  | .string name => ofName name
  | .array [.string "list", e] => (ofJson e).map .list
  | .array [.string "set", e] => (ofJson e).map .set
  | .array [.string "map", e] => (ofJson e).map .map
  | .array [.string "object", .object members] => (ofMembers members).map .object
  | .array [.string "object", _] => .error .attributesNotObject
  | .array [.string kind, _] => .error (.unknownKind kind)
  | .array [kind, _] => .error (.kindNotString kind)
  | json => .error (.malformed json)
termination_by structural json => json

/-- The attributes that the members of a JSON object write; the first that is no type decides. -/
def ofMembers : List (String × Json) → Except TyError (List (String × Ty))
  | [] => .ok []
  | (name, json) :: rest => do
    let t ← ofJson json
    let ts ← ofMembers rest
    return (name, t) :: ts
termination_by structural members => members

end

end Ty

end ProviderMock
