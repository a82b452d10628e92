import ProviderMock.Ty

/-!
# Schemas

The description of a configuration block: attributes and nested blocks, in declaration order, which
is also the order fields are visited in.

* **nesting** — a nested block or nested attribute holds one object, or a collection of objects.
* **equality** — `Block.same` ignores the order of declarations, and the order of attributes inside
  declared types.
* **parts** — what a walk over a schema needs of it. An attribute with a declared type is a leaf; a
  nested attribute and a nested block are the same thing, objects with parts of their own.
  `Block.parts` lists the attributes and then the nested blocks.
* **implied types** — `Block.impliedType` is the object type of the values that conform to a block.
  It is computed from the declarations, and `Block.impliedType_eq` says that the parts have it too.
-/

namespace ProviderMock

/-- A kind of collection. -/
inductive Collection where
  | list
  | set
  | map
  deriving DecidableEq, Repr

/-- How nested objects are held: there is one, or a collection of them. -/
inductive Nesting where
  | single
  | many (collection : Collection)
  deriving DecidableEq, Repr

/-- The type of collections of this kind. -/
def Collection.type : Collection → Ty → Ty
  | .list, t => .list t
  | .set, t => .set t
  | .map, t => .map t

/-- The type that holds objects of a type. -/
def Nesting.wrap : Nesting → Ty → Ty
  | .single, t => t
  | .many collection, t => collection.type t

/-- An attribute of a block. -/
inductive Attribute where
  /-- an attribute with a declared type -/
  | plain (type : Ty) (computed : Bool)
  /-- an attribute that holds nested objects; its declared type plays no part -/
  | nested (type : Ty) (computed : Bool) (nesting : Nesting)
      (attributes : List (String × Attribute))
  deriving Inhabited

/-- Named attributes and nested blocks. -/
inductive Block where
  | mk (attributes : List (String × Attribute)) (blocks : List (String × Nesting × Block))
  deriving Inhabited

/-! ## Equality -/

mutual

/-- Whether two attributes are declared alike. -/
def Attribute.same : Attribute → Attribute → Bool
  | .plain t c, .plain u d => t.same u && c == d
  | .nested t c m as, .nested u d n bs =>
    t.same u && c == d && m == n && as.length == bs.length && Attribute.sameAll as bs
  | _, _ => false
termination_by structural a => a

/-- Whether every attribute has a namesake declared alike among others. -/
def Attribute.sameAll : List (String × Attribute) → List (String × Attribute) → Bool
  | [], _ => true
  | (name, a) :: rest, bs =>
    (match bs.lookup name with
    | some b => Attribute.same a b
    | none => false) && Attribute.sameAll rest bs
termination_by structural as => as

end

mutual

/-- Whether two blocks declare the same, in whatever order. -/
def Block.same : Block → Block → Bool
  | .mk as bs, .mk cs ds =>
    as.length == cs.length && Attribute.sameAll as cs &&
      bs.length == ds.length && Block.sameAll bs ds
termination_by structural b => b

/-- Whether every nested block has a namesake that declares the same among others. -/
def Block.sameAll : List (String × Nesting × Block) → List (String × Nesting × Block) → Bool
  | [], _ => true
  | (name, m, a) :: rest, bs =>
    (match bs.lookup name with
    | some (n, b) => m == n && Block.same a b
    | none => false) && Block.sameAll rest bs
termination_by structural bs => bs

end

/-! ## Parts -/

/-- A field of the objects that a schema describes. -/
inductive Part where
  /-- a value of a declared type -/
  | leaf (type : Ty) (computed : Bool)
  /-- objects with fields of their own -/
  | nested (nesting : Nesting) (parts : List (String × Part))
  deriving Inhabited

mutual

/-- The type of a field. -/
def Part.type : Part → Ty
  | .leaf t _ => t
  | .nested n parts => n.wrap (.ofFields (Part.types parts))
termination_by structural p => p

/-- The types of fields, under their names. -/
def Part.types : List (String × Part) → List (String × Ty)
  | [] => []
  | (name, part) :: rest => (name, part.type) :: Part.types rest
termination_by structural ps => ps

end

/-- Induction on fields: a property of every field if it passes from the fields of nested objects to
the field that holds them. -/
@[elab_as_elim]
theorem Part.induction {P : Part → Prop} (leaf : ∀ t computed, P (.leaf t computed))
    (nested : ∀ nesting parts, (∀ p ∈ parts, P p.2) → P (.nested nesting parts)) (part : Part) :
    P part :=
  @Part.rec P (fun parts => ∀ p ∈ parts, P p.2) (fun p => P p.2) leaf nested
    (fun _ h => absurd h List.not_mem_nil)
    (fun _ _ hfirst hrest => List.forall_mem_cons.mpr ⟨hfirst, hrest⟩)
    (fun _ _ h => h) part

/-- The types of fields are the types of each. -/
theorem Part.types_eq_mapValues (parts : List (String × Part)) :
    Part.types parts = Fields.mapValues Part.type parts := by
  induction parts with
  | nil => rfl
  | cons part rest ih =>
    obtain ⟨name, p⟩ := part
    rw [Part.types, ih]
    rfl

/-- The type of an object with fields. Of two fields of one name the last one gives the type. -/
def Part.objectType (parts : List (String × Part)) : Ty := .ofFields (Part.types parts)

mutual

/-- The field that an attribute describes. -/
def Attribute.part : Attribute → Part
  | .plain t computed => .leaf t computed
  | .nested _ _ nesting attributes => .nested nesting (Attribute.parts attributes)
termination_by structural a => a

/-- The fields that attributes describe. -/
def Attribute.parts : List (String × Attribute) → List (String × Part)
  | [] => []
  | (name, a) :: rest => (name, a.part) :: Attribute.parts rest
termination_by structural as => as

end

/-- Attributes describe their fields one by one. -/
theorem Attribute.parts_eq_mapValues (attributes : List (String × Attribute)) :
    Attribute.parts attributes = Fields.mapValues Attribute.part attributes := by
  induction attributes with
  | nil => rfl
  | cons first rest ih =>
    obtain ⟨name, a⟩ := first
    rw [Attribute.parts, ih]
    rfl

mutual

/-- The fields that a block describes: its attributes, and then its nested blocks. -/
def Block.parts : Block → List (String × Part)
  | .mk attributes blocks => Attribute.parts attributes ++ Block.nestedParts blocks
termination_by structural b => b

/-- The fields that nested blocks describe. -/
def Block.nestedParts : List (String × Nesting × Block) → List (String × Part)
  | [] => []
  | (name, nesting, block) :: rest => (name, .nested nesting block.parts) :: Block.nestedParts rest
termination_by structural bs => bs

end

/-- Nested blocks describe their fields one by one. -/
theorem Block.nestedParts_eq_mapValues (blocks : List (String × Nesting × Block)) :
    Block.nestedParts blocks =
      Fields.mapValues (fun declared => .nested declared.1 declared.2.parts) blocks := by
  induction blocks with
  | nil => rfl
  | cons first rest ih =>
    obtain ⟨name, nesting, b⟩ := first
    rw [Block.nestedParts, ih]
    rfl

/-! ## Implied types

The type of the values that a schema describes follows the declarations, and not the parts that a
walk makes of them. Both come to the same type. -/

mutual

/-- The type of the values of an attribute. -/
def Attribute.impliedType : Attribute → Ty
  | .plain t _ => t
  | .nested _ _ nesting attributes => nesting.wrap (.ofFields (Attribute.impliedTypes attributes))
termination_by structural a => a

/-- The types of the values of attributes, under their names. -/
def Attribute.impliedTypes : List (String × Attribute) → List (String × Ty)
  | [] => []
  | (name, a) :: rest => (name, a.impliedType) :: Attribute.impliedTypes rest
termination_by structural as => as

end

mutual

/-- The object type of the values that conform to a block. -/
def Block.impliedType : Block → Ty
  | .mk attributes blocks =>
    .ofFields (Attribute.impliedTypes attributes ++ Block.impliedTypes blocks)
termination_by structural b => b

/-- The types of the values of nested blocks, under their names. -/
def Block.impliedTypes : List (String × Nesting × Block) → List (String × Ty)
  | [] => []
  | (name, nesting, b) :: rest => (name, nesting.wrap b.impliedType) :: Block.impliedTypes rest
termination_by structural bs => bs

end

mutual

/-- An attribute and its field have the same type. -/
theorem Attribute.impliedType_eq : ∀ a : Attribute, a.impliedType = a.part.type
  | .plain _ _ => rfl
  | .nested _ _ nesting attributes => by
    rw [Attribute.impliedType, Attribute.impliedTypes_eq attributes, Attribute.part, Part.type]
termination_by structural a => a

/-- Attributes and their fields have the same types. -/
theorem Attribute.impliedTypes_eq : ∀ attributes : List (String × Attribute),
    Attribute.impliedTypes attributes = Part.types (Attribute.parts attributes)
  | [] => rfl
  | (name, a) :: rest => by
    rw [Attribute.impliedTypes, Attribute.impliedType_eq a, Attribute.impliedTypes_eq rest,
      Attribute.parts, Part.types]
termination_by structural as => as

end

/-- The types of fields in a row are the types of the first ones and of the others. -/
theorem Part.types_append (parts more : List (String × Part)) :
    Part.types (parts ++ more) = Part.types parts ++ Part.types more := by
  simp [Part.types_eq_mapValues, Fields.mapValues]

mutual

/-- The type implied by a block is the type of the objects that have its fields. -/
theorem Block.impliedType_eq : ∀ b : Block, b.impliedType = Part.objectType b.parts
  | .mk attributes blocks => by
    rw [Block.impliedType, Attribute.impliedTypes_eq attributes, Block.impliedTypes_eq blocks,
      Block.parts, Part.objectType, Part.types_append]
termination_by structural b => b

/-- Nested blocks and their fields have the same types. -/
theorem Block.impliedTypes_eq : ∀ blocks : List (String × Nesting × Block),
    Block.impliedTypes blocks = Part.types (Block.nestedParts blocks)
  | [] => rfl
  | (name, nesting, b) :: rest => by
    rw [Block.impliedTypes, Block.impliedType_eq b, Block.impliedTypes_eq rest, Block.nestedParts,
      Part.types, Part.type, Part.objectType]
termination_by structural bs => bs

end

end ProviderMock
