import ProviderMock.Schema
import ProviderMock.Ty.Json
import ProviderMock.Json.Document

/-!
# Schemas as JSON

* **writing** — `Block.toJson` writes declarations in their order, so its objects are not sorted. A
  block leaves out what it has none of; everything else is written even where it is the default.
* **reading** — `blockOf` reads a document in its own order, and the first thing wrong in
  it decides. Everything is optional but the block of a nested block, members that mean nothing here
  are ignored, and an array stands for an object with the members in declaration order. A name that
  is declared twice keeps its first position and takes its last declaration, but a member that means
  something may not be repeated.
-/

namespace ProviderMock

/-! ## Writing -/

/-- The name of a nesting. -/
def Nesting.name : Nesting → String
  | .single => "single"
  | .many .list => "list"
  | .many .set => "set"
  | .many .map => "map"

mutual

/-- The JSON of an attribute. -/
def Attribute.toJson : Attribute → Json
  | .plain t computed => .object [("type", t.toJson), ("computed", .bool computed)]
  | .nested t computed nesting attributes =>
    .object [("type", t.toJson),
      ("nested_type", .object [("attributes", .object (Attribute.allToJson attributes)),
        ("nesting", .string nesting.name)]),
      ("computed", .bool computed)]
termination_by structural a => a

/-- The JSON of attributes, under their names. -/
def Attribute.allToJson : List (String × Attribute) → List (String × Json)
  | [] => []
  | (name, a) :: rest => (name, a.toJson) :: Attribute.allToJson rest
termination_by structural as => as

end

/-- A member for declarations, unless there is none. -/
def declarations (name : String) (members : List (String × Json)) : List (String × Json) :=
  if members.isEmpty then [] else [(name, .object members)]

mutual

/-- The JSON of a block. -/
def Block.toJson : Block → Json
  | .mk attributes blocks =>
    .object (declarations "attributes" (Attribute.allToJson attributes) ++
      declarations "block_types" (Block.allToJson blocks))
termination_by structural b => b

/-- The JSON of nested blocks, under their names. -/
def Block.allToJson : List (String × Nesting × Block) → List (String × Json)
  | [] => []
  | (name, nesting, block) :: rest =>
    (name, .object [("block", block.toJson), ("nesting", .string nesting.name)]) ::
      Block.allToJson rest
termination_by structural bs => bs

end

/-! ## Reading -/

/-- Why a document is no schema. -/
inductive SchemaError where
  /-- the type of an attribute is none -/
  | invalidType (cause : TyError)
  /-- a member that must be there is not -/
  | missingField (name : String)
  /-- a member that means something is repeated -/
  | duplicateField (name : String)
  /-- a nesting that is none -/
  | unknownNesting (name : String)
  /-- the text is no JSON, or something in it is of the wrong kind -/
  | malformed

/-- What is said about a document that is no schema, where that is settled. -/
def SchemaError.message? : SchemaError → Option String
  | .invalidType cause => some cause.message
  | .missingField name => some ("missing field `" ++ name ++ "`")
  | .duplicateField name => some ("duplicate field `" ++ name ++ "`")
  | .unknownNesting name =>
    some ("unknown variant `" ++ name ++ "`, expected one of `single`, `list`, `set`, `map`")
  | .malformed => none

namespace Schema

/-- What was read, if the document goes on as it should. -/
def orMalformed {α : Type} (fine : Bool) (result : α) : Except SchemaError α :=
  if fine then .ok result else .error .malformed

/-- The nesting of a name. -/
def nestingOfName (name : String) : Except SchemaError Nesting :=
  match name with
  | "single" => .ok .single
  | "list" => .ok (.many .list)
  | "set" => .ok (.many .set)
  | "map" => .ok (.many .map)
  | _ => .error (.unknownNesting name)

/-- The nesting that a document writes: its name, or an object with the name as its only member and
null as the value. -/
def nestingOf (depth : Nat) : Document → Except SchemaError Nesting
  | .string (some name) => nestingOfName name
  | .object ((some name, value) :: rest) closed =>
    if depth = 0 then .error .malformed
    else do
      let nesting ← nestingOfName name
      match value with
      | .null => orMalformed (closed && rest.isEmpty) nesting
      | _ => .error .malformed
  | _ => .error .malformed

/-- The bool that a document writes. -/
def boolOf : Document → Except SchemaError Bool
  | .bool b => .ok b
  | _ => .error .malformed

/-- The type that a document writes. -/
def typeOf (depth : Nat) (document : Document) : Except SchemaError Ty :=
  match document.json? depth with
  | some json => (Ty.ofJson json).mapError .invalidType
  | none => .error .malformed

/-- Refuse a member that was read before. -/
def once {α : Type} (name : String) (previous : Option α) : Except SchemaError Unit :=
  if previous.isSome then .error (.duplicateField name) else .ok ()

/-- What was read of an attribute so far. -/
structure AttributeDraft where
  type : Option Ty
  nested : Option (Option (Nesting × List (String × Attribute)))
  computed : Option Bool

/-- Nothing was read of an attribute yet. -/
def AttributeDraft.empty : AttributeDraft := ⟨none, none, none⟩

/-- The attribute with what was read of it, and defaults for the rest. -/
def AttributeDraft.finish (draft : AttributeDraft) : Attribute :=
  let type := draft.type.getD .dynamic
  let computed := draft.computed.getD false
  match draft.nested.join with
  | some (nesting, attributes) => .nested type computed nesting attributes
  | none => .plain type computed

mutual

/-- The attribute that a document writes. -/
def attributeOf (depth : Nat) : Document → Except SchemaError Attribute
  | .object members closed =>
    if depth = 0 then .error .malformed else attributeMembers (depth - 1) .empty members closed
  | .array [] closed => orMalformed (depth ≠ 0 && closed) (AttributeDraft.finish .empty)
  | .array [a] closed =>
    if depth = 0 then .error .malformed
    else do
      let type ← typeOf (depth - 1) a
      orMalformed closed (AttributeDraft.finish ⟨some type, none, none⟩)
  | .array [a, b] closed =>
    if depth = 0 then .error .malformed
    else do
      let type ← typeOf (depth - 1) a
      let nested ← nestedTypeOf (depth - 1) b
      orMalformed closed (AttributeDraft.finish ⟨some type, some nested, none⟩)
  | .array (a :: b :: c :: rest) closed =>
    if depth = 0 then .error .malformed
    else do
      let type ← typeOf (depth - 1) a
      let nested ← nestedTypeOf (depth - 1) b
      let computed ← boolOf c
      orMalformed (closed && rest.isEmpty)
        (AttributeDraft.finish ⟨some type, some nested, some computed⟩)
  | _ => .error .malformed
termination_by structural document => document

/-- The attribute that members write, with what was read before them. -/
def attributeMembers (depth : Nat) (draft : AttributeDraft) :
    List (Option String × Document) → Bool → Except SchemaError Attribute
  | [], closed => orMalformed closed draft.finish
  | (none, _) :: _, _ => .error .malformed
  | (some name, value) :: rest, closed =>
    match name with
    | "type" => do
      -- a repetition is reported before its value is looked at
      once name draft.type
      let type ← typeOf depth value
      attributeMembers depth { draft with type := some type } rest closed
    | "nested_type" => do
      once name draft.nested
      let nested ← nestedTypeOf depth value
      attributeMembers depth { draft with nested := some nested } rest closed
    | "computed" => do
      once name draft.computed
      let computed ← boolOf value
      attributeMembers depth { draft with computed := some computed } rest closed
    | _ => if value.isComplete then attributeMembers depth draft rest closed else .error .malformed
termination_by structural members => members

/-- The nesting and the attributes of a nested attribute, or nothing where a document writes
null. -/
def nestedTypeOf (depth : Nat) :
    Document → Except SchemaError (Option (Nesting × List (String × Attribute)))
  | .null => .ok none
  | .object members closed =>
    if depth = 0 then .error .malformed else nestedTypeMembers (depth - 1) none none members closed
  | .array [] closed => orMalformed (depth ≠ 0 && closed) (some (.single, []))
  | .array [a] closed =>
    if depth = 0 then .error .malformed
    else do
      let attributes ← attributesOf (depth - 1) a
      orMalformed closed (some (.single, attributes))
  | .array (a :: b :: rest) closed =>
    if depth = 0 then .error .malformed
    else do
      let attributes ← attributesOf (depth - 1) a
      let nesting ← nestingOf (depth - 1) b
      orMalformed (closed && rest.isEmpty) (some (nesting, attributes))
  | _ => .error .malformed
termination_by structural document => document

/-- The nesting and the attributes that members write, with what was read before them. -/
def nestedTypeMembers (depth : Nat) (attributes : Option (List (String × Attribute)))
    (nesting : Option Nesting) : List (Option String × Document) → Bool →
      Except SchemaError (Option (Nesting × List (String × Attribute)))
  | [], closed => orMalformed closed (some (nesting.getD .single, attributes.getD []))
  | (none, _) :: _, _ => .error .malformed
  | (some name, value) :: rest, closed =>
    match name with
    | "attributes" => do
      once name attributes
      let attributes ← attributesOf depth value
      nestedTypeMembers depth (some attributes) nesting rest closed
    | "nesting" => do
      once name nesting
      let nesting ← nestingOf depth value
      nestedTypeMembers depth attributes (some nesting) rest closed
    | _ =>
      if value.isComplete then nestedTypeMembers depth attributes nesting rest closed
      else .error .malformed
termination_by structural members => members

/-- The attributes that a document declares. -/
def attributesOf (depth : Nat) : Document → Except SchemaError (List (String × Attribute))
  | .object members closed =>
    if depth = 0 then .error .malformed else attributesMembers (depth - 1) [] members closed
  | _ => .error .malformed
termination_by structural document => document

/-- The attributes that members declare, put after those before them. -/
def attributesMembers (depth : Nat) (attributes : List (String × Attribute)) :
    List (Option String × Document) → Bool → Except SchemaError (List (String × Attribute))
  | [], closed => orMalformed closed attributes
  | (none, _) :: _, _ => .error .malformed
  | (some name, value) :: rest, closed => do
    let declared ← attributeOf depth value
    attributesMembers depth (Fields.put attributes name declared) rest closed
termination_by structural members => members

end

mutual

/-- The block that a document writes. -/
def blockOf (depth : Nat) : Document → Except SchemaError Block
  | .object members closed =>
    if depth = 0 then .error .malformed else blockMembers (depth - 1) none none members closed
  | .array [] closed => orMalformed (depth ≠ 0 && closed) (.mk [] [])
  | .array [a] closed =>
    if depth = 0 then .error .malformed
    else do
      let attributes ← attributesOf (depth - 1) a
      orMalformed closed (.mk attributes [])
  | .array (a :: b :: rest) closed =>
    if depth = 0 then .error .malformed
    else do
      let attributes ← attributesOf (depth - 1) a
      let blocks ← blocksOf (depth - 1) b
      orMalformed (closed && rest.isEmpty) (.mk attributes blocks)
  | _ => .error .malformed
termination_by structural document => document

/-- The block that members write, with what was read before them. -/
def blockMembers (depth : Nat) (attributes : Option (List (String × Attribute)))
    (blocks : Option (List (String × Nesting × Block))) :
    List (Option String × Document) → Bool → Except SchemaError Block
  | [], closed => orMalformed closed (.mk (attributes.getD []) (blocks.getD []))
  | (none, _) :: _, _ => .error .malformed
  | (some name, value) :: rest, closed =>
    match name with
    | "attributes" => do
      once name attributes
      let attributes ← attributesOf depth value
      blockMembers depth (some attributes) blocks rest closed
    | "block_types" => do
      once name blocks
      let blocks ← blocksOf depth value
      blockMembers depth attributes (some blocks) rest closed
    | _ =>
      if value.isComplete then blockMembers depth attributes blocks rest closed
      else .error .malformed
termination_by structural members => members

/-- The nested block that a document writes. -/
def nestedBlockOf (depth : Nat) : Document → Except SchemaError (Nesting × Block)
  | .object members closed =>
    if depth = 0 then .error .malformed else nestedBlockMembers (depth - 1) none none members closed
  | .array [a] closed =>
    if depth = 0 then .error .malformed
    else do
      let block ← blockOf (depth - 1) a
      orMalformed closed (.single, block)
  | .array (a :: b :: rest) closed =>
    if depth = 0 then .error .malformed
    else do
      let block ← blockOf (depth - 1) a
      let nesting ← nestingOf (depth - 1) b
      orMalformed (closed && rest.isEmpty) (nesting, block)
  | _ => .error .malformed
termination_by structural document => document

/-- The nested block that members write, with what was read before them. -/
def nestedBlockMembers (depth : Nat) (block : Option Block) (nesting : Option Nesting) :
    List (Option String × Document) → Bool → Except SchemaError (Nesting × Block)
  | [], closed =>
    if closed then
      match block with
      | some block => .ok (nesting.getD .single, block)
      | none => .error (.missingField "block")
    else .error .malformed
  | (none, _) :: _, _ => .error .malformed
  | (some name, value) :: rest, closed =>
    match name with
    | "block" => do
      once name block
      let block ← blockOf depth value
      nestedBlockMembers depth (some block) nesting rest closed
    | "nesting" => do
      once name nesting
      let nesting ← nestingOf depth value
      nestedBlockMembers depth block (some nesting) rest closed
    | _ =>
      if value.isComplete then nestedBlockMembers depth block nesting rest closed
      else .error .malformed
termination_by structural members => members

/-- The nested blocks that a document declares. -/
def blocksOf (depth : Nat) : Document → Except SchemaError (List (String × Nesting × Block))
  | .object members closed =>
    if depth = 0 then .error .malformed else blocksMembers (depth - 1) [] members closed
  | _ => .error .malformed
termination_by structural document => document

/-- The nested blocks that members declare, put after those before them. -/
def blocksMembers (depth : Nat) (blocks : List (String × Nesting × Block)) :
    List (Option String × Document) → Bool → Except SchemaError (List (String × Nesting × Block))
  | [], closed => orMalformed closed blocks
  | (none, _) :: _, _ => .error .malformed
  | (some name, value) :: rest, closed => do
    let declared ← nestedBlockOf depth value
    blocksMembers depth (Fields.put blocks name declared) rest closed
termination_by structural members => members

end

end Schema

/-- The block that a text writes. -/
def Block.ofText (text : String) : Except SchemaError Block := do
  let (document, ended) := Document.ofText text
  let block ← Schema.blockOf Document.maxDepth document
  Schema.orMalformed ended block

/-- The type that a text writes. -/
def Ty.ofText (text : String) : Except SchemaError Ty := do
  let (document, ended) := Document.ofText text
  let type ← Schema.typeOf Document.maxDepth document
  Schema.orMalformed ended type

end ProviderMock
