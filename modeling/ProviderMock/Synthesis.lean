import ProviderMock.Schema
import ProviderMock.Synthesis.Walk

/-!
# Synthesis

A target value is completed along a schema. The schema decides the shape: the result has exactly
its fields. What is not computed passes through from the target; a computed field that is unset is
filled from the replacement, if there is a part of it that converts, and otherwise by the mode.

* **modes** — what counts as unset, and what fills it where the replacement does not: a read and an
  apply generate a known value, a plan leaves it unknown.
* **leaves** — `Synthesis.leaf` fills one computed field.
* **collections** — a replacement knows no positions: the one object in it that belongs to a
  collection is used for every element. `Collection.children?` are the elements of a target and
  `Collection.build` puts their completions together again.
* **the walk** — `Synthesis.field` completes a field and `Synthesis.fields` an object, in
  declaration order.
-/

namespace ProviderMock

/-! ## Modes -/

/-- What a synthesis is for. -/
inductive Mode where
  /-- reading a data source: what is null is filled -/
  | read
  /-- planning a resource: what is null is replaced or becomes unknown -/
  | plan
  /-- applying a plan: what is unknown is filled -/
  | apply
  deriving DecidableEq, Repr

/-- Whether a computed value is still to be filled. -/
def Mode.isUnset : Mode → Value → Bool
  | .read, v => v.isNull
  | .plan, v => v.isNull
  | .apply, v => v.isUnknown

/-! ## Targets -/

/-- The field of a target: what an object has under the name, or else a null of the declared type.
All fields of an unknown target are unknown. -/
def Value.fieldOr (target : Value) (name : String) (t : Ty) : Value :=
  match target with
  | .object fields => (fields.lookup name).getD (.null t)
  | .unknown _ => .unknown t
  | _ => .null t

/-- Values with their positions, counted from `start`. -/
def indexed (start : Nat) : List Value → List (PathStep × Value)
  | [] => []
  | v :: rest => (.index start, v) :: indexed (start + 1) rest

namespace Collection

/-- The elements of a target with the steps to them, if it is a collection of this kind. A list is
as good as a set, and an object as good as a map. -/
def children? (collection : Collection) (target : Value) : Option (List (PathStep × Value)) :=
  match collection with
  | .list => target.elements?.map (indexed 0)
  | .set => target.elements?.map (indexed 0)
  | .map => target.named?.map fun entries => entries.map fun entry => (.key entry.1, entry.2)

/-- The collection of elements of one type, each with the step to it. Only what has a key can be in
a map. -/
def build (collection : Collection) (elementType : Ty) (children : List (PathStep × Value)) :
    Value :=
  match collection with
  | .list => .list elementType (children.map Prod.snd)
  | .set => .setOf elementType (children.map Prod.snd)
  | .map =>
    .mapOf elementType (children.filterMap fun
      | (.key k, v) => some (k, v)
      | _ => none)

end Collection

namespace Synthesis

/-- What is the same all over a synthesis. -/
structure Context where
  mode : Mode
  /-- where the replacement was defined -/
  range : SourceRange

namespace Context

variable (context : Context)

/-- What an unset leaf becomes without a replacement. -/
def fallback (t : Ty) : Walk Value :=
  match context.mode with
  | .plan => pure (.unknown t)
  | _ => Walk.generate t

/-- Fill a computed leaf. A null in the replacement is as good as nothing; what does not convert is
reported and then ignored. -/
def leaf (t : Ty) (target : Value) (replacement : Option Value) (path : Path) : Walk Value :=
  if context.mode.isUnset target then
    match replacement.filter (fun r => !r.isNull) with
    | none => context.fallback t
    | some r =>
      match r.convert t with
      | .ok v => pure v
      | .error e => do
        Walk.raise (.typeMismatch t path context.range e)
        context.fallback t
  else pure target

/-- The replacement of nested objects. A null is as good as nothing; what has no object type is
reported and then ignored. -/
def nestedReplacement (replacement : Option Value) (path : Path) : Walk (Option Value) :=
  match replacement with
  | none => pure none
  | some r =>
    if r.isNull then pure none
    else if r.isObject then pure (some r)
    else do
      Walk.raise (.nestedShape path context.range r.ty)
      return none

/-- What a target becomes that is no collection of the declared kind. A null becomes the empty
collection, and an unknown does when it is applied; anything else is kept as it is. -/
def absent (empty target : Value) : Value :=
  match target with
  | .null _ => empty
  | .unknown _ => if context.mode = .apply then empty else target
  | _ => target

mutual

/-- Complete a field. -/
def field : Part → Value → Option Value → Path → Walk Value
  | .leaf t computed, target, replacement, path =>
    if computed then context.leaf t target replacement path else pure target
  | .nested nesting parts, target, replacement, path => do
    let replacement ← context.nestedReplacement replacement path
    match nesting with
    | .single => return .ofFields (← fields parts target replacement path)
    | .many collection =>
      let build := collection.build (Part.objectType parts)
      match collection.children? target with
      | none => return context.absent (build []) target
      | some children =>
        -- the one replacement serves every child
        let complete child path := return .ofFields (← fields parts child replacement path)
        return build (← Walk.each complete path children)
termination_by structural p => p

/-- Complete the fields of an object, in declaration order. -/
def fields : List (String × Part) → Value → Option Value → Path → Walk (List (String × Value))
  | [], _, _, _ => pure []
  | (name, part) :: rest, target, replacement, path => do
    let v ← field part (target.fieldOr name part.type) (replacement.bind (·.field? name))
      (path.step (.attr name))
    let vs ← fields rest target replacement path
    return (name, v) :: vs
termination_by structural ps => ps

end

/-- The schema alone decides which fields there are, and their order. -/
theorem names_fields (parts : List (String × Part)) (target : Value) (replacement : Option Value)
    (path : Path) (p : Progress) :
    Fields.names (context.fields parts target replacement path p).1 = Fields.names parts := by
  induction parts generalizing p with
  | nil => rfl
  | cons part rest ih =>
    obtain ⟨name, part⟩ := part
    rw [fields]
    simp [ih]

/-- Complete an object with these parts. A field declared twice keeps its first position and takes
its last completion. -/
def object (parts : List (String × Part)) (target : Value) (replacement : Option Value)
    (path : Path) : Walk Value :=
  return .ofFields (← context.fields parts target replacement path)

/-- Complete a target along a block. -/
def block (schema : Block) (target : Value) (replacement : Option Value) (path : Path) :
    Walk Value :=
  context.object schema.parts target replacement path

end Context

end Synthesis

end ProviderMock
