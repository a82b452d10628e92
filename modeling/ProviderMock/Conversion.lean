import ProviderMock.Value
import ProviderMock.Path
import ProviderMock.Double.Text

/-!
# Conversion

The type-directed conversion of values. A value converts to the wanted type as a whole or not at
all.

* **any type** — everything converts to `dynamic`, and nulls and unknowns convert to every type.
* **primitives** — a primitive converts to a string by its text, a string to a number or a bool by
  reading it.
* **collections** — lists and sets convert to each other element by element, maps and objects to
  maps entry by entry.
* **objects** — an object or a map converts to an object type that has exactly its names.

A failure says where it is, relative to the value converted: the first part that fails, in order.
-/

namespace ProviderMock

/-- Why a value does not convert by itself, whatever its parts. -/
inductive ConversionCause where
  | stringRequired
  | numberRequired
  | boolRequired
  | listRequired
  | setRequired
  | mapRequired
  | objectRequired
  /-- a string that writes no finite number -/
  | noNumber
  /-- a string that writes no bool -/
  | noBool
  /-- a field that the object type does not have -/
  | unsupportedAttribute (name : String)
  /-- an attribute of the object type that the value does not have -/
  | missingAttribute (name : String)
  deriving DecidableEq, Repr

/-- What is said about a cause. -/
def ConversionCause.message : ConversionCause → String
  | .stringRequired => "string required"
  | .numberRequired => "number required"
  | .boolRequired => "bool required"
  | .listRequired => "list required"
  | .setRequired => "set required"
  | .mapRequired => "map required"
  | .objectRequired => "object required"
  | .noNumber => "a number is required"
  | .noBool => "a bool is required"
  | .unsupportedAttribute name => "unsupported attribute " ++ Text.quote name
  | .missingAttribute name => "attribute " ++ Text.quote name ++ " is required"

/-- A failed conversion: the place in the value, and what is wrong there. -/
structure ConversionError where
  path : Path
  cause : ConversionCause
  deriving DecidableEq, Repr

namespace ConversionError

/-- A failure at the value itself. -/
def here (cause : ConversionCause) : ConversionError := ⟨Path.root, cause⟩

/-- A failure in a part, seen from the whole. -/
def within (step : PathStep) (e : ConversionError) : ConversionError :=
  { e with path := step :: e.path }

/-- What a step of the place is called. -/
def describeStep : PathStep → String
  | .attr name => "attribute " ++ Text.quote name
  | .index index => "element " ++ toString index
  | .key key => "element " ++ Text.quote key

/-- The place, unless it is the root, and what is wrong there. -/
def display (e : ConversionError) : String :=
  match e.path with
  | [] => e.cause.message
  | path => ", ".intercalate (path.map describeStep) ++ ": " ++ e.cause.message

end ConversionError

namespace Value

/-! ## Primitives -/

/-- The text of a number: always written out, without a point on whole numbers, and with names for
the infinities and for not-a-number. -/
def numberLayout : Double.Layout where
  positional _ := true
  pointZero := false
  tie := .up

/-- The text of a number. -/
def numberText (x : Double) : String :=
  if x.isNaN then "NaN"
  else if x.isFinite then String.ofList (x.text numberLayout)
  else if x.isNegative then "-inf"
  else "inf"

/-- A primitive as a string. -/
def toStringValue : Value → Except ConversionError Value
  | .string s => .ok (.string s)
  | .number x => .ok (.string (numberText x))
  | .bool b => .ok (.string (if b then "true" else "false"))
  | _ => .error (.here .stringRequired)

/-- A number, or a string that writes a finite one. -/
def toNumberValue : Value → Except ConversionError Value
  | .number x => .ok (.number x)
  | .string s =>
    match Double.ofText s.toList with
    | some x => if x.isFinite then .ok (.number x) else .error (.here .noNumber)
    | none => .error (.here .noNumber)
  | _ => .error (.here .numberRequired)

/-- A bool, or a string that writes one. -/
def toBoolValue : Value → Except ConversionError Value
  | .bool b => .ok (.bool b)
  | .string s =>
    if s = "true" ∨ s = "1" then .ok (.bool true)
    else if s = "false" ∨ s = "0" then .ok (.bool false)
    else .error (.here .noBool)
  | _ => .error (.here .boolRequired)

/-! ## Parts -/

/-- Convert elements from position `start` on. -/
def convertElements (convert : Value → Except ConversionError Value) (start : Nat) :
    List Value → Except ConversionError (List Value)
  | [] => .ok []
  | e :: rest => do
    let w ← (convert e).mapError (·.within (.index start))
    let ws ← convertElements convert (start + 1) rest
    return w :: ws

/-- Convert entries, keeping their keys. -/
def convertEntries (convert : Value → Except ConversionError Value) :
    List (String × Value) → Except ConversionError (List (String × Value))
  | [] => .ok []
  | (key, e) :: rest => do
    let w ← (convert e).mapError (·.within (.key key))
    let ws ← convertEntries convert rest
    return (key, w) :: ws

/-- The elements to convert to those of a list or set. -/
def elementsOr (cause : ConversionCause) (v : Value) : Except ConversionError (List Value) :=
  match v.elements? with
  | some elements => .ok elements
  | none => .error (.here cause)

/-- The entries or fields to convert to those of a map or object. -/
def namedOr (cause : ConversionCause) (v : Value) :
    Except ConversionError (List (String × Value)) :=
  match v.named? with
  | some fields => .ok fields
  | none => .error (.here cause)

/-- Refuse fields that an object type does not have; the first of them is reported. -/
def refuseExtra (attributes : List (String × Ty)) (fields : List (String × Value)) :
    Except ConversionError Unit :=
  match fields.find? (fun field => !Fields.has attributes field.1) with
  | some (extra, _) => .error (.here (.unsupportedAttribute extra))
  | none => .ok ()

/-- The field of an attribute, which must be there. -/
def requireField (fields : List (String × Value)) (name : String) : Except ConversionError Value :=
  match fields.lookup name with
  | some v => .ok v
  | none => .error (.here (.missingAttribute name))

/-! ## Conversion to a type -/

/-- A null or an unknown as one of the wanted type, and any other value converted. -/
def retype (want : Ty) (convert : Value → Except ConversionError Value) (v : Value) :
    Except ConversionError Value :=
  match v with
  | .null _ => .ok (.null want)
  | .unknown _ => .ok (.unknown want)
  | v => convert v

mutual

/-- Convert a value to the wanted type. -/
def convert : Ty → Value → Except ConversionError Value
  | .dynamic, v => .ok v
  | .string, v => v.retype .string toStringValue
  | .number, v => v.retype .number toNumberValue
  | .bool, v => v.retype .bool toBoolValue
  | .list element, v => v.retype (.list element) fun v => do
    let elements ← v.elementsOr .listRequired
    return .list element (← convertElements (convert element) 0 elements)
  | .set element, v => v.retype (.set element) fun v => do
    let elements ← v.elementsOr .setRequired
    return setOf element (← convertElements (convert element) 0 elements)
  | .map element, v => v.retype (.map element) fun v => do
    let entries ← v.namedOr .mapRequired
    return mapOf element (← convertEntries (convert element) entries)
  | .object attributes, v => v.retype (.object attributes) fun v => do
    let fields ← v.namedOr .objectRequired
    refuseExtra attributes fields
    return .object (← convertFields attributes fields)
termination_by structural want => want

/-- Convert the field of every attribute to the type of the attribute. -/
def convertFields : List (String × Ty) → List (String × Value) →
    Except ConversionError (List (String × Value))
  | [], _ => .ok []
  | (name, want) :: rest, fields => do
    let v ← requireField fields name
    let w ← (convert want v).mapError (·.within (.attr name))
    let ws ← convertFields rest fields
    return (name, w) :: ws
termination_by structural attributes => attributes

end

end Value

end ProviderMock
