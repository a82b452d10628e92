import ProviderMock.Proofs.Aligned
import ProviderMock.Schema
import ProviderMock.Value

/-!
# Well-formed types, values and schemas

Objects, object types and schemas are lists of named things. The lists that `Fields.ofList` and
`Entries.ofList` build name nothing twice, and those of maps ascend; a type, a value or a schema is
*well-formed* when this holds all through it.

* **types** — `Ty.same_self`: a well-formed type is the same as itself.
* **schemas** — `Block.isWellFormed` leaves one thing open: a nested block may have the name of an
  attribute beside it. `Block.isUnambiguous` rules this out at every depth, and
  `Block.unambiguous_parts` says that no name then stands for two fields.
-/

namespace ProviderMock

/-! ## Types -/

namespace Ty

mutual

/-- Whether no object type in a type names an attribute twice. -/
def isWellFormed : Ty → Bool
  | .list e => isWellFormed e
  | .set e => isWellFormed e
  | .map e => isWellFormed e
  | .object attributes => decide (Fields.Distinct attributes) && attributesWellFormed attributes
  | _ => true
termination_by structural t => t

/-- Whether the types of attributes are well-formed. -/
def attributesWellFormed : List (String × Ty) → Bool
  | [] => true
  | (_, t) :: rest => isWellFormed t && attributesWellFormed rest
termination_by structural attributes => attributes

end

theorem attributesWellFormed_iff {attributes : List (String × Ty)} :
    attributesWellFormed attributes = true ↔ ∀ a ∈ attributes, a.2.isWellFormed = true := by
  induction attributes with
  | nil => simp [attributesWellFormed]
  | cons a rest ih => simp [attributesWellFormed, ih]

theorem isWellFormed_object_iff {attributes : List (String × Ty)} :
    (Ty.object attributes).isWellFormed = true ↔
      Fields.Distinct attributes ∧ ∀ a ∈ attributes, a.2.isWellFormed = true := by
  rw [isWellFormed, Bool.and_eq_true, decide_eq_true_iff, attributesWellFormed_iff]

/-- An object type from attributes that are put one after the other names none twice. -/
theorem isWellFormed_ofFields {attributes : List (String × Ty)}
    (h : ∀ a ∈ Fields.ofList attributes, a.2.isWellFormed = true) :
    (ofFields attributes).isWellFormed = true :=
  isWellFormed_object_iff.mpr ⟨Fields.distinct_ofList attributes, h⟩

/-- A well-formed type is the same as itself. -/
theorem same_self {t : Ty} (h : t.isWellFormed = true) : t.same t = true := by
  induction t using Ty.induction with
  | string | number | bool | dynamic => rfl
  | list e ih | set e ih | map e ih => exact ih h
  | object attributes ih =>
    obtain ⟨hdistinct, hall⟩ := isWellFormed_object_iff.mp h
    rw [same, sameAttributes_eq_all, Bool.and_eq_true]
    refine ⟨beq_self_eq_true _, List.all_eq_true.mpr fun a ha => ?_⟩
    rw [Fields.lookup_of_mem hdistinct (show (a.1, a.2) ∈ attributes from ha)]
    exact ih a ha (hall a ha)

end Ty

/-! ## Values -/

namespace Value

mutual

/-- Whether no object in a value names a field twice, the keys of every map ascend, and all types
are well-formed. -/
def isWellFormed : Value → Bool
  | .null t => t.isWellFormed
  | .unknown t => t.isWellFormed
  | .list t elements => t.isWellFormed && areWellFormed elements
  | .set t elements => t.isWellFormed && areWellFormed elements
  | .map t entries =>
    t.isWellFormed && decide (Entries.Ascending entries) && fieldsWellFormed entries
  | .object fields => decide (Fields.Distinct fields) && fieldsWellFormed fields
  | _ => true
termination_by structural v => v

/-- Whether values are well-formed. -/
def areWellFormed : List Value → Bool
  | [] => true
  | v :: rest => isWellFormed v && areWellFormed rest
termination_by structural vs => vs

/-- Whether the values of fields are well-formed. -/
def fieldsWellFormed : List (String × Value) → Bool
  | [] => true
  | (_, v) :: rest => isWellFormed v && fieldsWellFormed rest
termination_by structural fields => fields

end

theorem areWellFormed_iff {values : List Value} :
    areWellFormed values = true ↔ ∀ v ∈ values, v.isWellFormed = true := by
  induction values with
  | nil => simp [areWellFormed]
  | cons v rest ih => simp [areWellFormed, ih]

theorem fieldsWellFormed_iff {fields : List (String × Value)} :
    fieldsWellFormed fields = true ↔ ∀ f ∈ fields, f.2.isWellFormed = true := by
  induction fields with
  | nil => simp [fieldsWellFormed]
  | cons f rest ih => simp [fieldsWellFormed, ih]

/-- The elements of a well-formed list or set are well-formed. -/
theorem isWellFormed_of_mem_elements {v : Value} (h : v.isWellFormed = true)
    {elements : List Value} (helements : v.elements? = some elements) :
    ∀ e ∈ elements, e.isWellFormed = true := by
  cases v with
  | list t es | set t es =>
    obtain rfl := Option.some.inj helements
    rw [isWellFormed, Bool.and_eq_true] at h
    exact areWellFormed_iff.mp h.2
  | _ => cases helements

/-- The entries of a well-formed map and the fields of a well-formed object are well-formed. -/
theorem isWellFormed_of_mem_named {v : Value} (h : v.isWellFormed = true)
    {fields : List (String × Value)} (hfields : v.named? = some fields) :
    ∀ f ∈ fields, f.2.isWellFormed = true := by
  cases v with
  | map t entries =>
    obtain rfl := Option.some.inj hfields
    rw [isWellFormed, Bool.and_eq_true] at h
    exact fieldsWellFormed_iff.mp h.2
  | object fs =>
    obtain rfl := Option.some.inj hfields
    rw [isWellFormed, Bool.and_eq_true] at h
    exact fieldsWellFormed_iff.mp h.2
  | _ => cases hfields

/-- No name occurs twice in a well-formed object. -/
theorem distinct_of_isWellFormed {fields : List (String × Value)}
    (h : (Value.object fields).isWellFormed = true) : Fields.Distinct fields := by
  rw [isWellFormed, Bool.and_eq_true, decide_eq_true_iff] at h
  exact h.1

/-- The keys of a well-formed map ascend. -/
theorem ascending_of_isWellFormed {t : Ty} {entries : List (String × Value)}
    (h : (Value.map t entries).isWellFormed = true) : Entries.Ascending entries := by
  rw [isWellFormed, Bool.and_eq_true, Bool.and_eq_true, decide_eq_true_iff] at h
  exact h.1.2

end Value

/-! ## Schemas -/

mutual

/-- Whether no name is used twice in nested attributes, and declared types are well-formed. -/
def Attribute.isWellFormed : Attribute → Bool
  | .plain t _ => t.isWellFormed
  | .nested t _ _ attributes =>
    t.isWellFormed && decide (Fields.Distinct attributes) && Attribute.areWellFormed attributes
termination_by structural a => a

/-- Whether attributes are well-formed. -/
def Attribute.areWellFormed : List (String × Attribute) → Bool
  | [] => true
  | (_, a) :: rest => a.isWellFormed && Attribute.areWellFormed rest
termination_by structural as => as

end

mutual

/-- Whether no two attributes and no two nested blocks of one block share a name, and declared types
are well-formed. -/
def Block.isWellFormed : Block → Bool
  | .mk attributes blocks =>
    decide (Fields.Distinct attributes) && Attribute.areWellFormed attributes &&
      decide (Fields.Distinct blocks) && Block.areWellFormed blocks
termination_by structural b => b

/-- Whether nested blocks are well-formed. -/
def Block.areWellFormed : List (String × Nesting × Block) → Bool
  | [] => true
  | (_, _, b) :: rest => b.isWellFormed && Block.areWellFormed rest
termination_by structural bs => bs

end

mutual

/-- Whether no nested block has the name of an attribute of the same block, at any depth. -/
def Block.isUnambiguous : Block → Bool
  | .mk attributes blocks =>
    blocks.all (fun b => !Fields.has attributes b.1) && Block.areUnambiguous blocks
termination_by structural b => b

/-- Whether nested blocks are unambiguous. -/
def Block.areUnambiguous : List (String × Nesting × Block) → Bool
  | [] => true
  | (_, _, b) :: rest => b.isUnambiguous && Block.areUnambiguous rest
termination_by structural bs => bs

end

namespace Part

mutual

/-- The declared types in a field are well-formed. -/
def WellFormed : Part → Prop
  | .leaf t _ => t.isWellFormed = true
  | .nested _ parts => AllWellFormed parts
termination_by structural p => p

/-- The declared types in fields are well-formed. -/
def AllWellFormed : List (String × Part) → Prop
  | [] => True
  | (_, p) :: rest => p.WellFormed ∧ AllWellFormed rest
termination_by structural ps => ps

end

mutual

/-- No name stands for two fields of the objects that a field holds. -/
def Unambiguous : Part → Prop
  | .leaf _ _ => True
  | .nested _ parts => Fields.Distinct parts ∧ AllUnambiguous parts
termination_by structural p => p

/-- No name stands for two fields of the objects that fields hold. -/
def AllUnambiguous : List (String × Part) → Prop
  | [] => True
  | (_, p) :: rest => p.Unambiguous ∧ AllUnambiguous rest
termination_by structural ps => ps

end

theorem allWellFormed_iff {parts : List (String × Part)} :
    AllWellFormed parts ↔ ∀ p ∈ parts, p.2.WellFormed := by
  induction parts with
  | nil => simp [AllWellFormed]
  | cons p rest ih => simp [AllWellFormed, ih]

theorem allUnambiguous_iff {parts : List (String × Part)} :
    AllUnambiguous parts ↔ ∀ p ∈ parts, p.2.Unambiguous := by
  induction parts with
  | nil => simp [AllUnambiguous]
  | cons p rest ih => simp [AllUnambiguous, ih]

/-- The type of a field with well-formed declared types is well-formed, whatever names are
shared. -/
theorem WellFormed.type {part : Part} (h : part.WellFormed) : part.type.isWellFormed = true := by
  induction part using Part.induction with
  | leaf t computed => exact h
  | nested nesting parts ih =>
    have hobject : (Ty.ofFields (Part.types parts)).isWellFormed = true := by
      refine Ty.isWellFormed_ofFields fun a ha => ?_
      rw [Part.types_eq_mapValues] at ha
      obtain ⟨p, hp, rfl⟩ := List.mem_map.mp (Fields.mem_of_mem_ofList ha)
      exact ih p hp (allWellFormed_iff.mp h p hp)
    cases nesting with
    | single => exact hobject
    | many collection => cases collection <;> exact hobject

end Part

/-! ## From declarations to fields -/

theorem Attribute.names_parts (attributes : List (String × Attribute)) :
    Fields.names (Attribute.parts attributes) = Fields.names attributes := by
  rw [Attribute.parts_eq_mapValues, Fields.names_mapValues]

theorem Block.names_nestedParts (blocks : List (String × Nesting × Block)) :
    Fields.names (Block.nestedParts blocks) = Fields.names blocks := by
  rw [Block.nestedParts_eq_mapValues, Fields.names_mapValues]

/-- Attributes with distinct names describe fields with distinct names. -/
theorem Attribute.distinct_parts {attributes : List (String × Attribute)}
    (h : Fields.Distinct attributes) : Fields.Distinct (Attribute.parts attributes) := by
  rw [Fields.Distinct, Attribute.names_parts]
  exact h

/-- Nested blocks with distinct names describe fields with distinct names. -/
theorem Block.distinct_nestedParts {blocks : List (String × Nesting × Block)}
    (h : Fields.Distinct blocks) : Fields.Distinct (Block.nestedParts blocks) := by
  rw [Fields.Distinct, Block.names_nestedParts]
  exact h

mutual

/-- The field of a well-formed attribute is well-formed and unambiguous: there are no nested blocks
in it. -/
theorem Attribute.wellFormed_part : ∀ a : Attribute, a.isWellFormed = true →
    a.part.WellFormed ∧ a.part.Unambiguous
  | .plain _ _, h => ⟨h, trivial⟩
  | .nested _ _ _ attributes, h => by
    rw [Attribute.isWellFormed, Bool.and_eq_true, Bool.and_eq_true, decide_eq_true_iff] at h
    obtain ⟨⟨-, hdistinct⟩, hall⟩ := h
    obtain ⟨hwell, hunambiguous⟩ := Attribute.wellFormed_parts attributes hall
    exact ⟨hwell, Attribute.distinct_parts hdistinct, hunambiguous⟩
termination_by structural a => a

/-- The fields of well-formed attributes are well-formed and unambiguous. -/
theorem Attribute.wellFormed_parts : ∀ attributes : List (String × Attribute),
    Attribute.areWellFormed attributes = true →
    Part.AllWellFormed (Attribute.parts attributes) ∧
      Part.AllUnambiguous (Attribute.parts attributes)
  | [], _ => ⟨trivial, trivial⟩
  | (_, a) :: rest, h => by
    rw [Attribute.areWellFormed, Bool.and_eq_true] at h
    obtain ⟨hwell, hunambiguous⟩ := Attribute.wellFormed_part a h.1
    obtain ⟨hwells, hunambiguouss⟩ := Attribute.wellFormed_parts rest h.2
    exact ⟨⟨hwell, hwells⟩, hunambiguous, hunambiguouss⟩
termination_by structural as => as

end

theorem Part.AllWellFormed.append {parts more : List (String × Part)}
    (h : Part.AllWellFormed parts) (hmore : Part.AllWellFormed more) :
    Part.AllWellFormed (parts ++ more) := by
  rw [Part.allWellFormed_iff] at h hmore ⊢
  exact List.forall_mem_append.mpr ⟨h, hmore⟩

theorem Part.AllUnambiguous.append {parts more : List (String × Part)}
    (h : Part.AllUnambiguous parts) (hmore : Part.AllUnambiguous more) :
    Part.AllUnambiguous (parts ++ more) := by
  rw [Part.allUnambiguous_iff] at h hmore ⊢
  exact List.forall_mem_append.mpr ⟨h, hmore⟩

mutual

/-- The fields of a well-formed block are well-formed. -/
theorem Block.wellFormed_parts : ∀ b : Block, b.isWellFormed = true → Part.AllWellFormed b.parts
  | .mk attributes blocks, h => by
    simp only [Block.isWellFormed, Bool.and_eq_true] at h
    obtain ⟨⟨⟨-, hattributes⟩, -⟩, hblocks⟩ := h
    exact (Attribute.wellFormed_parts attributes hattributes).1.append
      (Block.wellFormed_nestedParts blocks hblocks)
termination_by structural b => b

/-- The fields of well-formed nested blocks are well-formed. -/
theorem Block.wellFormed_nestedParts : ∀ blocks : List (String × Nesting × Block),
    Block.areWellFormed blocks = true → Part.AllWellFormed (Block.nestedParts blocks)
  | [], _ => trivial
  | (_, _, b) :: rest, h => by
    rw [Block.areWellFormed, Bool.and_eq_true] at h
    exact ⟨Block.wellFormed_parts b h.1, Block.wellFormed_nestedParts rest h.2⟩
termination_by structural bs => bs

end

mutual

/-- In a well-formed block in which no nested block has the name of an attribute, no name stands for
two fields. -/
theorem Block.unambiguous_parts : ∀ b : Block, b.isWellFormed = true → b.isUnambiguous = true →
    Fields.Distinct b.parts ∧ Part.AllUnambiguous b.parts
  | .mk attributes blocks, hwell, h => by
    simp only [Block.isWellFormed, Bool.and_eq_true, decide_eq_true_iff] at hwell
    obtain ⟨⟨⟨hattributes, hwells⟩, hblocks⟩, hnested⟩ := hwell
    rw [Block.isUnambiguous, Bool.and_eq_true, List.all_eq_true] at h
    obtain ⟨hapart, hunambiguous⟩ := h
    refine ⟨?_, (Attribute.wellFormed_parts attributes hwells).2.append
      (Block.unambiguous_nestedParts blocks hnested hunambiguous)⟩
    rw [Block.parts, Fields.Distinct, Fields.names_append, Attribute.names_parts,
      Block.names_nestedParts]
    refine List.nodup_append.mpr ⟨hattributes, hblocks, fun name hname other hother heq => ?_⟩
    subst heq
    -- a name of both would be one of a nested block that the attributes have
    obtain ⟨b, hb, rfl⟩ := List.mem_map.mp hother
    have hnot : Fields.has attributes b.1 = false := by simpa using hapart b hb
    rw [Fields.has_iff.mpr hname] at hnot
    cases hnot
termination_by structural b => b

/-- In well-formed nested blocks without shared names, no name stands for two fields. -/
theorem Block.unambiguous_nestedParts : ∀ blocks : List (String × Nesting × Block),
    Block.areWellFormed blocks = true → Block.areUnambiguous blocks = true →
    Part.AllUnambiguous (Block.nestedParts blocks)
  | [], _, _ => trivial
  | (_, _, b) :: rest, hwell, h => by
    rw [Block.areWellFormed, Bool.and_eq_true] at hwell
    rw [Block.areUnambiguous, Bool.and_eq_true] at h
    exact ⟨Block.unambiguous_parts b hwell.1 h.1,
      Block.unambiguous_nestedParts rest hwell.2 h.2⟩
termination_by structural bs => bs

end

end ProviderMock
