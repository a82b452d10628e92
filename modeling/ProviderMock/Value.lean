import ProviderMock.Ty
import ProviderMock.Double

/-!
# Values

Structured values that carry their types, shared by targets, replacements and results. A null and
an unknown value keep the type they stand in for, so an empty or absent field can still be typed
when it is filled.

* **sameness** — `Value.same` is the equality of values. It ignores the order of object fields and
  of set elements, and compares numbers as numbers.
* **construction** — `Value.setOf` keeps the first of equal elements, `Value.mapOf` sorts by key and
  `Value.ofFields` keeps the order of names. `Value.listOfFirst`, `Value.setOfFirst` and
  `Value.mapOfFirst` take the element type from the first part there is.
* **reading** — `Value.ty` is the type of a value, `Value.isWhollyKnown` looks for unknown parts.
  `Value.isWhollyKnown_list_iff` and its like say where it looks.
-/

namespace ProviderMock

/-- A value with its type. -/
inductive Value where
  /-- no value, where one of type `ty` could be -/
  | null (ty : Ty)
  /-- a value of type `ty` that will only be known later -/
  | unknown (ty : Ty)
  | string (text : String)
  | number (number : Double)
  | bool (bool : Bool)
  | list (elementType : Ty) (elements : List Value)
  /-- a set; its elements are in the order they were added -/
  | set (elementType : Ty) (elements : List Value)
  /-- a map; its entries ascend by key -/
  | map (elementType : Ty) (entries : List (String × Value))
  /-- an object; its fields keep their order -/
  | object (fields : List (String × Value))
  deriving Inhabited

namespace Value

/-- Induction on values: a property of every value if it passes from elements, entries and fields to
the values that hold them. -/
@[elab_as_elim]
theorem induction {P : Value → Prop} (null : ∀ t, P (.null t)) (unknown : ∀ t, P (.unknown t))
    (string : ∀ s, P (.string s)) (number : ∀ x, P (.number x)) (bool : ∀ b, P (.bool b))
    (list : ∀ t elements, (∀ e ∈ elements, P e) → P (.list t elements))
    (set : ∀ t elements, (∀ e ∈ elements, P e) → P (.set t elements))
    (map : ∀ t entries, (∀ e ∈ entries, P e.2) → P (.map t entries))
    (object : ∀ fields, (∀ f ∈ fields, P f.2) → P (.object fields)) (v : Value) : P v :=
  @Value.rec P (fun elements => ∀ e ∈ elements, P e) (fun fields => ∀ f ∈ fields, P f.2)
    (fun f => P f.2) null unknown string number bool list set map object
    (fun _ h => absurd h List.not_mem_nil)
    (fun _ _ hfirst hrest => List.forall_mem_cons.mpr ⟨hfirst, hrest⟩)
    (fun _ h => absurd h List.not_mem_nil)
    (fun _ _ hfirst hrest => List.forall_mem_cons.mpr ⟨hfirst, hrest⟩)
    (fun _ _ h => h) v

/-! ## Sameness -/

/-- A comparison, or the same with its sides exchanged. -/
def sided {α : Type} (compare : α → α → Bool) : Bool → α → α → Bool
  | false, a, b => compare a b
  | true, a, b => compare b a

mutual

/-- Whether the first of two values is equal to the second or, if turned, the second to the first.
Two sets are equal if they have as many elements, and for each element of the first there is one of
the second that is equal to it. So elements of sets are compared the other way round than the sets,
and what is compared stays in its place while the comparison turns. -/
def sameTurned : Bool → Value → Value → Bool
  | turned, .null t, .null u => sided Ty.same turned t u
  | turned, .unknown t, .unknown u => sided Ty.same turned t u
  | _, .string a, .string b => a == b
  | turned, .number a, .number b => sided Double.same turned a b
  | _, .bool a, .bool b => a == b
  | turned, .list t as, .list u bs => sided Ty.same turned t u && sameElements turned as bs
  | false, .set t as, .set u bs => t.same u && as.length == bs.length && sameMembers as bs
  | true, .set t as, .set u bs => u.same t && bs.length == as.length && bs.all (hasMember as)
  | turned, .map t as, .map u bs => sided Ty.same turned t u && sameEntries turned as bs
  | false, .object as, .object bs => as.length == bs.length && sameFields as bs
  | true, .object as, .object bs =>
    bs.length == as.length && bs.all fun field => hasField as field.1 field.2
  | _, _, _ => false
termination_by structural _ value => value

/-- Whether two lists have equal elements in the same order. -/
def sameElements : Bool → List Value → List Value → Bool
  | _, [], [] => true
  | turned, a :: as, b :: bs => sameTurned turned a b && sameElements turned as bs
  | _, _, _ => false
termination_by structural _ values => values

/-- Whether every element has one of others that is equal to it. -/
def sameMembers : List Value → List Value → Bool
  | [], _ => true
  | a :: as, bs => bs.any (fun b => sameTurned true a b) && sameMembers as bs
termination_by structural values => values

/-- Whether one of the elements is equal to another value. -/
def hasMember : List Value → Value → Bool
  | [], _ => false
  | a :: as, b => sameTurned false a b || hasMember as b
termination_by structural values => values

/-- Whether two lists of entries have equal keys and values in the same order. -/
def sameEntries : Bool → List (String × Value) → List (String × Value) → Bool
  | _, [], [] => true
  | turned, (k, a) :: as, (l, b) :: bs =>
    k == l && sameTurned turned a b && sameEntries turned as bs
  | _, _, _ => false
termination_by structural _ entries => entries

/-- Whether every field is equal to its namesake among others. -/
def sameFields : List (String × Value) → List (String × Value) → Bool
  | [], _ => true
  | (name, a) :: as, bs =>
    (match bs.lookup name with
    | some b => sameTurned false a b
    | none => false) && sameFields as bs
termination_by structural fields => fields

/-- Whether another value is equal to the field with a name. -/
def hasField : List (String × Value) → String → Value → Bool
  | [], _, _ => false
  | (name, a) :: as, wanted, b =>
    if wanted = name then sameTurned true a b else hasField as wanted b
termination_by structural fields => fields

end

/-- Whether two values are equal. -/
def same (a b : Value) : Bool := sameTurned false a b

/-! ## Types -/

mutual

/-- The type of a value. -/
def ty : Value → Ty
  | .null t => t
  | .unknown t => t
  | .string _ => .string
  | .number _ => .number
  | .bool _ => .bool
  | .list t _ => .list t
  | .set t _ => .set t
  | .map t _ => .map t
  | .object fields => .object (fieldTypes fields)

/-- The types of fields, under their names. -/
def fieldTypes : List (String × Value) → List (String × Ty)
  | [] => []
  | (name, value) :: rest => (name, ty value) :: fieldTypes rest

end

/-- The type of the first value there is, if any. -/
def firstType (values : List Value) : Ty := (values.head?.map ty).getD .dynamic

/-! ## Construction -/

/-- The elements that equal no earlier one, in order. -/
def distinct (elements : List Value) : List Value :=
  elements.foldl (fun kept e => if kept.any (·.same e) then kept else kept ++ [e]) []

/-- The elements that are kept are among all, in their order. -/
theorem sublist_distinct (elements : List Value) : (distinct elements).Sublist elements := by
  -- from any kept elements on: what is added to them comes from the rest
  have aux : ∀ elements kept : List Value, ∃ added : List Value, added.Sublist elements ∧
      elements.foldl (fun kept e => if kept.any (·.same e) then kept else kept ++ [e]) kept =
        kept ++ added := by
    intro elements
    induction elements with
    | nil => exact fun kept => ⟨[], List.Sublist.refl [], (List.append_nil kept).symm⟩
    | cons e rest ih =>
      intro kept
      rw [List.foldl_cons]
      split
      · obtain ⟨added, hsub, heq⟩ := ih kept
        exact ⟨added, hsub.cons e, heq⟩
      · obtain ⟨added, hsub, heq⟩ := ih (kept ++ [e])
        exact ⟨e :: added, hsub.cons_cons e, by rw [heq, List.append_assoc]; rfl⟩
  obtain ⟨added, hsub, heq⟩ := aux elements []
  rw [distinct, heq]
  exact hsub

/-- A list with the type of its first element. -/
def listOfFirst (elements : List Value) : Value := .list (firstType elements) elements

/-- A set of elements of one type. -/
def setOf (elementType : Ty) (elements : List Value) : Value := .set elementType (distinct elements)

/-- A set with the type of its first element. -/
def setOfFirst (elements : List Value) : Value := setOf (firstType elements) elements

/-- A map of entries of one type. -/
def mapOf (elementType : Ty) (entries : List (String × Value)) : Value :=
  .map elementType (Entries.ofList entries)

/-- A map with the type of its first entry in order of keys. -/
def mapOfFirst (entries : List (String × Value)) : Value :=
  mapOf (firstType ((Entries.ofList entries).map Prod.snd)) entries

/-- An object from fields put one after the other. -/
def ofFields (fields : List (String × Value)) : Value := .object (Fields.ofList fields)

/-! ## Reading -/

/-- Whether a value is null. -/
def isNull : Value → Bool
  | .null _ => true
  | _ => false

/-- Whether a value as a whole is unknown. -/
def isUnknown : Value → Bool
  | .unknown _ => true
  | _ => false

/-- Whether a value has an object type: an object, or a null or unknown that stands for one. -/
def isObject (value : Value) : Bool := value.ty.isObject

mutual

/-- Whether nothing in a value is unknown. -/
def isWhollyKnown : Value → Bool
  | .unknown _ => false
  | .list _ elements => areWhollyKnown elements
  | .set _ elements => areWhollyKnown elements
  | .map _ entries => fieldsWhollyKnown entries
  | .object fields => fieldsWhollyKnown fields
  | _ => true

/-- Whether nothing in any of the values is unknown. -/
def areWhollyKnown : List Value → Bool
  | [] => true
  | value :: rest => isWhollyKnown value && areWhollyKnown rest

/-- Whether nothing in the value of any field is unknown. -/
def fieldsWhollyKnown : List (String × Value) → Bool
  | [] => true
  | (_, value) :: rest => isWhollyKnown value && fieldsWhollyKnown rest

end

/-- The field of an object. -/
def field? : Value → String → Option Value
  | .object fields, name => fields.lookup name
  | _, _ => none

/-- The elements of a list or a set. -/
def elements? : Value → Option (List Value)
  | .list _ elements => some elements
  | .set _ elements => some elements
  | _ => none

/-- The entries of a map. -/
def entries? : Value → Option (List (String × Value))
  | .map _ entries => some entries
  | _ => none

/-- The named parts of a map or an object: an untyped reader yields objects where maps are meant, so
each is taken where the other is wanted. -/
def named? : Value → Option (List (String × Value))
  | .map _ entries => some entries
  | .object fields => some fields
  | _ => none

/-- The types of fields are the types of their values. -/
theorem fieldTypes_eq_mapValues (fields : List (String × Value)) :
    fieldTypes fields = Fields.mapValues ty fields := by
  induction fields with
  | nil => rfl
  | cons pair rest ih =>
    obtain ⟨name, value⟩ := pair
    rw [fieldTypes, ih]
    rfl

/-! ## Known values -/

/-- Values are known if each of them is. -/
theorem areWhollyKnown_eq_all (values : List Value) :
    areWhollyKnown values = values.all isWhollyKnown := by
  induction values with
  | nil => rfl
  | cons v rest ih => rw [areWhollyKnown, ih, List.all_cons]

/-- Fields are known if the value of each is. -/
theorem fieldsWhollyKnown_eq_all (fields : List (String × Value)) :
    fieldsWhollyKnown fields = fields.all fun field => field.2.isWhollyKnown := by
  induction fields with
  | nil => rfl
  | cons field rest ih =>
    obtain ⟨name, v⟩ := field
    rw [fieldsWhollyKnown, ih, List.all_cons]

theorem isWhollyKnown_list_iff {t : Ty} {elements : List Value} :
    (Value.list t elements).isWhollyKnown = true ↔ ∀ e ∈ elements, e.isWhollyKnown = true := by
  rw [isWhollyKnown, areWhollyKnown_eq_all, List.all_eq_true]

theorem isWhollyKnown_set_iff {t : Ty} {elements : List Value} :
    (Value.set t elements).isWhollyKnown = true ↔ ∀ e ∈ elements, e.isWhollyKnown = true := by
  rw [isWhollyKnown, areWhollyKnown_eq_all, List.all_eq_true]

theorem isWhollyKnown_map_iff {t : Ty} {entries : List (String × Value)} :
    (Value.map t entries).isWhollyKnown = true ↔ ∀ e ∈ entries, e.2.isWhollyKnown = true := by
  rw [isWhollyKnown, fieldsWhollyKnown_eq_all, List.all_eq_true]

theorem isWhollyKnown_object_iff {fields : List (String × Value)} :
    (Value.object fields).isWhollyKnown = true ↔ ∀ f ∈ fields, f.2.isWhollyKnown = true := by
  rw [isWhollyKnown, fieldsWhollyKnown_eq_all, List.all_eq_true]

/-- A known value is not unknown. -/
theorem isUnknown_of_isWhollyKnown {v : Value} (h : v.isWhollyKnown = true) :
    v.isUnknown = false := by
  cases v with
  | unknown t => cases h
  | _ => rfl

/-- The elements of a known list or set are known. -/
theorem isWhollyKnown_of_mem_elements {v : Value} (h : v.isWhollyKnown = true)
    {elements : List Value} (helements : v.elements? = some elements) :
    ∀ e ∈ elements, e.isWhollyKnown = true := by
  cases v with
  | list t es =>
    obtain rfl := Option.some.inj helements
    exact isWhollyKnown_list_iff.mp h
  | set t es =>
    obtain rfl := Option.some.inj helements
    exact isWhollyKnown_set_iff.mp h
  | _ => cases helements

/-- The entries of a known map and the fields of a known object are known. -/
theorem isWhollyKnown_of_mem_named {v : Value} (h : v.isWhollyKnown = true)
    {fields : List (String × Value)} (hfields : v.named? = some fields) :
    ∀ f ∈ fields, f.2.isWhollyKnown = true := by
  cases v with
  | map t entries =>
    obtain rfl := Option.some.inj hfields
    exact isWhollyKnown_map_iff.mp h
  | object fs =>
    obtain rfl := Option.some.inj hfields
    exact isWhollyKnown_object_iff.mp h
  | _ => cases hfields

/-- A field of a known value is known. -/
theorem isWhollyKnown_of_field {v : Value} (h : v.isWhollyKnown = true) {name : String} {w : Value}
    (hw : v.field? name = some w) : w.isWhollyKnown = true := by
  cases v with
  | object fields => exact isWhollyKnown_object_iff.mp h _ (Fields.mem_of_lookup hw)
  | _ => cases hw

end Value

end ProviderMock
