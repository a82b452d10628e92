import ProviderMock.Proofs.Layout

/-!
# Reading again what was written

What is read without a type is written as JSON that is read as the very same value. The JSON is not
the one that was read, since items of arrays are converted and numbers become doubles; but the types
that are found in it are the same, down to those of nulls and of empty lists.

* **settled trees** — `Json.Settled`: the items of every array have the type of the array as they
  are, and numbers are doubles. `Json.Settled.infer_eq` and `Json.Settled.toJson_under`: reading a
  settled tree and writing its value are inverse to each other.
* **conversions** — `Json.Converted` says all of what a conversion does to a settled tree, as
  another tree. `Json.exists_converted`: every conversion to a type that is found from data does it.
* **reading** — `exists_settled_of_infer`: whatever is read is the value of a settled tree.
-/

namespace ProviderMock

open Fields (Aligned)

/-! ## Types found from data -/

namespace Ty

/-- Types that are found from data: there are no sets and maps, and attributes ascend. -/
inductive Found : Ty → Prop where
  | dynamic : Found .dynamic
  | string : Found .string
  | number : Found .number
  | bool : Found .bool
  | list {e : Ty} (he : Found e) : Found (.list e)
  | object {attributes : List (String × Ty)} (hascending : Entries.Ascending attributes)
      (h : ∀ a ∈ attributes, Found a.2) : Found (.object attributes)

mutual

/-- The type found in place of another one after a conversion. Where nothing but nulls were found
before, nothing else is found after it. -/
def recast : Ty → Ty → Ty
  | .dynamic, _ => .dynamic
  | .list d, .list e => .list (recast d e)
  | .object attributes, .object wanted => .object (recastAttributes attributes wanted)
  | _, .string => .string
  | _, .number => .number
  | _, .bool => .bool
  | t, _ => t
termination_by structural t => t

/-- The types found in place of those of attributes. -/
def recastAttributes : List (String × Ty) → List (String × Ty) → List (String × Ty)
  | [], _ => []
  | (name, t) :: rest, wanted =>
    (name, match wanted.lookup name with
    | some u => recast t u
    | none => t) :: recastAttributes rest wanted
termination_by structural attributes => attributes

end

theorem recast_dynamic (t : Ty) : t.recast .dynamic = t := by
  cases t <;> rfl

theorem map_recast_dynamic (types : List Ty) : types.map (·.recast .dynamic) = types := by
  simp only [recast_dynamic, List.map_id']

theorem names_recastAttributes (attributes wanted : List (String × Ty)) :
    Fields.names (recastAttributes attributes wanted) = Fields.names attributes := by
  induction attributes with
  | nil => rfl
  | cons a rest ih =>
    obtain ⟨name, t⟩ := a
    rw [recastAttributes, Fields.names_cons, Fields.names_cons, ih]

theorem lookup_recastAttributes {wanted : List (String × Ty)} {name : String} {u : Ty}
    (hu : wanted.lookup name = some u) (attributes : List (String × Ty)) :
    (recastAttributes attributes wanted).lookup name =
      (attributes.lookup name).map (·.recast u) := by
  induction attributes with
  | nil => rfl
  | cons a rest ih =>
    obtain ⟨n, t⟩ := a
    rw [recastAttributes, Fields.lookup_cons, Fields.lookup_cons]
    split
    · rename_i hn
      subst hn
      rw [hu]
      rfl
    · exact ih

/-- A type that is found already stays. -/
theorem recast_self {t : Ty} (h : t.Found) : t.recast t = t := by
  induction h with
  | dynamic | string | number | bool => rfl
  | list _ ih => rw [recast, ih]
  | @object attributes hascending _ ih =>
    have hdistinct : Fields.Distinct (recastAttributes attributes attributes) := by
      rw [Fields.Distinct, names_recastAttributes]
      exact hascending.distinct
    rw [recast]
    refine congrArg Ty.object (Fields.eq_of_lookup_eq hdistinct
      (names_recastAttributes _ _) fun name a t ha ht => ?_)
    rw [lookup_recastAttributes ht, ht] at ha
    rw [← Option.some.inj ha]
    exact ih _ (Fields.mem_of_lookup ht)

theorem elementTypes_map_recast (e : Ty) (types : List Ty) :
    elementTypes (types.map (·.recast (.list e))) = (elementTypes types).map (·.recast e) := by
  have hrecast : ∀ t : Ty, element? (t.recast (.list e)) = (element? t).map (·.recast e) := by
    intro t
    cases t <;> rfl
  simp only [elementTypes, List.filterMap_map, List.map_filterMap, Function.comp_def, hrecast]

theorem attributeTypes_map_recast {wanted : List (String × Ty)} {name : String} {u : Ty}
    (hu : wanted.lookup name = some u) (types : List Ty) :
    attributeTypes name (types.map (·.recast (.object wanted))) =
      (attributeTypes name types).map (·.recast u) := by
  have hrecast : ∀ t : Ty, attribute? name (t.recast (.object wanted)) =
      (attribute? name t).map (·.recast u) := by
    intro t
    cases t with
    | object attributes => exact lookup_recastAttributes hu attributes
    | _ => rfl
  simp only [attributeTypes, List.filterMap_map, List.map_filterMap, Function.comp_def, hrecast]

/-- Whether a type is that of strings, numbers or bools. -/
def isPrimitive : Ty → Bool
  | .string => true
  | .number => true
  | .bool => true
  | _ => false

theorem recast_of_isPrimitive {t u : Ty} (ht : t.isPrimitive = true) (hu : u.isPrimitive = true) :
    t.recast u = u := by
  cases t with
  | string | number | bool =>
    cases u with
    | string | number | bool => rfl
    | _ => cases hu
  | _ => cases ht

end Ty

namespace Json

/-- The type found from data is a found type. -/
theorem found_ownType {json : Json} (hdata : json.isData = true) : json.ownType.Found := by
  induction json using Json.induction with
  | null => exact .dynamic
  | bool b => exact .bool
  | number n => exact .number
  | string s => exact .string
  | array items ih =>
    rw [isData_array_iff] at hdata
    exact .list (itemType_induction .dynamic fun item hitem => ih item hitem (hdata item hitem))
  | object members ih =>
    obtain ⟨hascending, hall⟩ := isData_object_iff.mp hdata
    rw [ownType, memberTypes_eq_mapValues]
    refine .object ?_ fun a ha => ?_
    · rw [Entries.Ascending, Fields.names_mapValues]
      exact hascending
    · obtain ⟨m, hm, rfl⟩ := List.mem_map.mp ha
      exact ih m hm (hall m hm)

/-! ## Settled trees -/

/-- Trees in which nothing is left to convert: the items of every array have the type of the array,
and numbers are doubles. -/
inductive Settled : Json → Prop where
  | null : Settled .null
  | bool (b : Bool) : Settled (.bool b)
  | double (x : Double) (finite : x.isFinite = true) : Settled (.number (.double x finite))
  | string (s : String) : Settled (.string s)
  | array {items : List Json} (hitems : ∀ item ∈ items, Settled item)
      (htype : ∀ item ∈ items, item.HasType (itemType items)) : Settled (.array items)
  | object {members : List (String × Json)} (hascending : Entries.Ascending members)
      (hmembers : ∀ m ∈ members, Settled m.2) : Settled (.object members)

theorem Settled.isData {json : Json} (h : json.Settled) : json.isData = true := by
  induction h with
  | null | bool b | double x finite | string s => rfl
  | array _ _ ih => exact isData_array_iff.mpr ih
  | object hascending _ ih => exact isData_object_iff.mpr ⟨hascending, ih⟩

/-- **A settled tree is read as its value** under no types. -/
theorem Settled.infer_eq {json : Json} (h : json.Settled) :
    Value.infer json = .ok (json.under []) := by
  induction h with
  | null | bool b | double x finite | string s => rfl
  | @array items hitems htype ih =>
    have hvs : List.Forall₂ (fun item v => Value.infer item = .ok v) items
        (items.map (·.under [])) :=
      List.forall₂_map_right_iff.mpr (List.forall₂_same.mpr ih)
    rw [under, itemsUnder_eq_map, ← commonType_under]
    refine Value.infer_array hvs ?_
    rw [commonType_under, List.forall₂_map_left_iff, List.forall₂_map_right_iff]
    exact List.forall₂_same.mpr fun item hitem =>
      convert_under (htype item hitem) (hitems item hitem).isData []
  | @object members hascending _ ih =>
    rw [under, membersUnder_nil]
    refine Value.infer_object ((Fields.aligned_mapValues _ members).imp fun name item v hmem hv => ?_)
    rw [hv]
    exact ih _ hmem

/-- **The value of a settled tree is written as the tree,** under any types. -/
theorem Settled.toJson_under {json : Json} (h : json.Settled) (types : List Ty) :
    (json.under types).toJson = json := by
  induction h generalizing types with
  | null | bool b | string s => rfl
  | double x finite => exact dif_pos finite
  | @array items _ _ ih =>
    rw [under, Value.toJson, Value.elementsToJson_eq_map, itemsUnder_eq_map, List.map_map]
    refine congrArg Json.array ?_
    exact (List.map_congr_left fun item hitem => ih item hitem _).trans (List.map_id items)
  | @object members hascending _ ih =>
    have hmembers : Aligned (fun _ v item => v.toJson = id item) (membersUnder members types)
        members := by
      refine List.Forall₂.flip (forall₂_imp_of_mem (aligned_membersUnder members types)
        fun m hm v _ h => ⟨h.1.symm, ?_⟩)
      rw [h.2]
      exact ih m hm _
    have hself : Fields.mapValues id members = members := List.map_id members
    rw [under, Value.toJson, Value.fieldsToJson_eq_mapValues, hmembers.mapValues_eq, hself, ofMembers,
      Entries.ofList_eq_self hascending]

/-! ## Conversions -/

/-- What a conversion to a type does to a settled tree: it makes another settled tree with the type,
which has as a type, recast, whatever was one before. The values of the first tree convert to values
of the second. -/
structure Converted (t : Ty) (json other : Json) : Prop where
  settled : other.Settled
  isNull_eq : other.isNull = json.isNull
  ownType_eq : other.ownType = json.ownType.recast t
  hasType : other.HasType t
  keeps (u : Ty) (h : json.HasType u) : other.HasType (u.recast t)
  convert_eq (types : List Ty) :
    (json.under types).convert t = .ok (other.under (types.map (·.recast t) ++ [t]))

theorem converted_dynamic {json : Json} (h : json.Settled) : Converted .dynamic json json where
  settled := h
  isNull_eq := rfl
  ownType_eq := (Ty.recast_dynamic _).symm
  hasType := .dynamic json
  keeps u hu := by
    rw [Ty.recast_dynamic]
    exact hu
  convert_eq types := by
    rw [Ty.map_recast_dynamic, under_concat_dynamic]
    rfl

theorem converted_null (t : Ty) : Converted t .null .null where
  settled := .null
  isNull_eq := rfl
  ownType_eq := rfl
  hasType := .null t
  keeps _ _ := .null _
  convert_eq types := by
    cases t with
    | dynamic => exact (converted_dynamic .null).convert_eq types
    | _ =>
      rw [under, under, Ty.latest_concat _ (by simp)]
      rfl

/-! ### Primitives -/

/-- Types are nothing to the value of a primitive. -/
theorem under_of_isPrimitive {json : Json} (h : json.ownType.isPrimitive = true) (types : List Ty) :
    json.under types = json.under [] := by
  cases json <;> first | rfl | cases h

theorem isNull_of_isPrimitive {json : Json} (h : json.ownType.isPrimitive = true) :
    json.isNull = false := by
  cases json <;> first | rfl | cases h

theorem hasType_iff_of_isPrimitive {json : Json} (h : json.ownType.isPrimitive = true) {t : Ty} :
    json.HasType t ↔ t = .dynamic ∨ t = json.ownType := by
  constructor
  · intro ht
    cases ht with
    | dynamic => exact .inl rfl
    | bool | number | string => exact .inr rfl
    | _ => cases h
  · rintro (rfl | rfl)
    · exact .dynamic json
    · cases json with
      | bool b => exact .bool b
      | number n => exact .number n
      | string s => exact .string s
      | _ => cases h

theorem converted_of_isPrimitive {json other : Json} (hjson : json.ownType.isPrimitive = true)
    (hother : other.ownType.isPrimitive = true) (hsettled : other.Settled)
    (h : (json.under []).convert other.ownType = .ok (other.under [])) :
    Converted other.ownType json other where
  settled := hsettled
  isNull_eq := (isNull_of_isPrimitive hother).trans (isNull_of_isPrimitive hjson).symm
  ownType_eq := (Ty.recast_of_isPrimitive hjson hother).symm
  hasType := (hasType_iff_of_isPrimitive hother).mpr (.inr rfl)
  keeps u hu := by
    rcases (hasType_iff_of_isPrimitive hjson).mp hu with rfl | rfl
    · exact .dynamic other
    · rw [Ty.recast_of_isPrimitive hjson hother]
      exact (hasType_iff_of_isPrimitive hother).mpr (.inr rfl)
  convert_eq types := by
    rw [under_of_isPrimitive hjson, under_of_isPrimitive hother, h]

/-- A primitive that converts to a primitive type makes a primitive. -/
theorem exists_converted_of_isPrimitive {json : Json} (hjson : json.ownType.isPrimitive = true)
    {t : Ty} (ht : t.isPrimitive = true) {types : List Ty} {w : Value}
    (h : (json.under types).convert t = .ok w) : ∃ other, Converted t json other := by
  rw [under_of_isPrimitive hjson] at h
  have hretype : ∀ f, (json.under []).retype t f = f (json.under []) := by
    intro f
    cases json <;> first | rfl | cases hjson
  cases t with
  | string =>
    obtain ⟨s, rfl⟩ := Value.toStringValue_eq_ok ((hretype _).symm.trans h)
    exact ⟨.string s, converted_of_isPrimitive hjson rfl (.string s) h⟩
  | number =>
    have hnumber := (hretype _).symm.trans h
    obtain ⟨x, rfl⟩ := Value.toNumberValue_eq_ok hnumber
    have hx : x.isFinite = true := by
      rcases Value.finite_of_toNumberValue hnumber with hx | hx
      · cases json with
        | number n =>
          rw [← Value.number.inj hx]
          exact n.isFinite_toDouble
        | _ => cases hx
      · exact hx
    exact ⟨.number (.double x hx), converted_of_isPrimitive hjson rfl (.double x hx) h⟩
  | bool =>
    obtain ⟨b, rfl⟩ := Value.toBoolValue_eq_ok ((hretype _).symm.trans h)
    exact ⟨.bool b, converted_of_isPrimitive hjson rfl (.bool b) h⟩
  | _ => cases ht

/-! ### Parts -/

/-- The type of converted items. -/
theorem itemType_of_converted {e : Ty} {items others : List Json}
    (h : List.Forall₂ (Converted e) items others) :
    itemType others = (itemType items).recast e := by
  induction h with
  | nil => rfl
  | cons hitem _ ih =>
    rw [itemType, itemType, hitem.isNull_eq]
    split
    · exact ih
    · exact hitem.ownType_eq

theorem Converted.array {e : Ty} {items others : List Json}
    (htype : ∀ item ∈ items, item.HasType (itemType items))
    (h : List.Forall₂ (Converted e) items others) :
    Converted (.list e) (.array items) (.array others) where
  settled := by
    refine .array (fun other hother => ?_) fun other hother => ?_
    · obtain ⟨item, -, hitem⟩ := exists_mem_left h hother
      exact hitem.settled
    · obtain ⟨item, hmem, hitem⟩ := exists_mem_left h hother
      rw [itemType_of_converted h]
      exact hitem.keeps _ (htype item hmem)
  isNull_eq := rfl
  ownType_eq := by rw [ownType, ownType, Ty.recast, itemType_of_converted h]
  hasType := by
    refine .array fun other hother => ?_
    obtain ⟨item, -, hitem⟩ := exists_mem_left h hother
    exact hitem.hasType
  keeps u hu := by
    cases hu with
    | dynamic => exact .dynamic _
    | array hall =>
      rw [Ty.recast]
      refine .array fun other hother => ?_
      obtain ⟨item, hmem, hitem⟩ := exists_mem_left h hother
      exact hitem.keeps _ (hall item hmem)
  convert_eq types := by
    refine convert_array_under (h.imp fun item other hitem => ?_)
    rw [hitem.convert_eq, itemType_of_converted h, Ty.elementTypes_map_recast, List.map_cons,
      List.cons_append]

/-- The types of converted members. -/
theorem memberTypes_of_converted {attributes : List (String × Ty)}
    {members others : List (String × Json)}
    (h : Aligned (fun name item other => ∃ t, attributes.lookup name = some t ∧
      Converted t item other) members others) :
    memberTypes others = Ty.recastAttributes (memberTypes members) attributes := by
  induction h with
  | nil => rfl
  | @cons m m' members others hm _ ih =>
    obtain ⟨name, item⟩ := m
    obtain ⟨name', other⟩ := m'
    obtain ⟨rfl, t, ht, hitem⟩ := hm
    rw [memberTypes, memberTypes, Ty.recastAttributes, ih, ht, hitem.ownType_eq]

theorem Converted.object {attributes : List (String × Ty)} {members others : List (String × Json)}
    (hascending : Entries.Ascending members)
    (hnames : Fields.names attributes = Fields.names members)
    (h : Aligned (fun name item other => ∃ t, attributes.lookup name = some t ∧
      Converted t item other) members others) :
    Converted (.object attributes) (.object members) (.object others) := by
  have hitems : ∀ name t other, attributes.lookup name = some t → others.lookup name = some other →
      ∃ item, members.lookup name = some item ∧ Converted t item other := by
    intro name t other ht hother
    obtain ⟨item, hitem, t', ht', hconverted⟩ := h.lookup hother
    obtain rfl := Option.some.inj (ht.symm.trans ht')
    exact ⟨item, hitem, hconverted⟩
  refine ⟨?settled, rfl, ?ownType_eq, ?hasType, fun u hu => ?keeps, fun types => ?convert_eq⟩
  case settled =>
    refine .object (Entries.ascending_of_aligned h hascending) fun m hm => ?_
    obtain ⟨item, -, t, -, hitem⟩ := h.exists_left hm
    exact hitem.settled
  case ownType_eq => rw [ownType, ownType, Ty.recast, memberTypes_of_converted h]
  case hasType =>
    refine .object (hnames.trans h.names_eq) fun name t other ht hother => ?_
    obtain ⟨item, -, hitem⟩ := hitems name t other ht hother
    exact hitem.hasType
  case keeps =>
    cases hu with
    | dynamic => exact .dynamic _
    | @object had _ hnames' hall =>
      rw [Ty.recast]
      refine .object ?_ fun name u other hu hother => ?_
      · rw [Ty.names_recastAttributes, hnames', h.names_eq]
      · obtain ⟨item, hitem, t, ht, hconverted⟩ := h.lookup hother
        rw [Ty.lookup_recastAttributes ht] at hu
        obtain ⟨u, hu', rfl⟩ := Option.map_eq_some_iff.mp hu
        exact hconverted.keeps u (hall name u item hu' hitem)
  case convert_eq =>
    refine convert_object_under hascending.distinct hnames h.names_eq
      fun name t item other ht hitem hother => ?_
    obtain ⟨item', hitem', hconverted⟩ := hitems name t other ht hother
    obtain rfl := Option.some.inj (hitem.symm.trans hitem')
    rw [hconverted.convert_eq, Ty.attributeTypes_map_recast ht]

/-- **Whatever converts to a type found from data is converted so.** -/
theorem exists_converted {t : Ty} (ht : t.Found) {json : Json} (hjson : json.Settled)
    {types : List Ty} {w : Value} (h : (json.under types).convert t = .ok w) :
    ∃ other, Converted t json other := by
  induction ht generalizing json types w with
  | dynamic => exact ⟨json, converted_dynamic hjson⟩
  | string | number | bool =>
    cases hjson with
    | null => exact ⟨.null, converted_null _⟩
    | bool | double | string => exact exists_converted_of_isPrimitive rfl rfl h
    | _ => cases h
  | @list e _ ih =>
    cases hjson with
    | null => exact ⟨.null, converted_null _⟩
    | @array items hitems htype =>
      obtain ⟨ws, hws, -⟩ := exists_of_convert_array h
      obtain ⟨others, hothers⟩ : ∃ others, List.Forall₂ (Converted e) items others := by
        refine exists_forall₂ fun item hitem => ?_
        obtain ⟨w, -, hw⟩ := exists_mem_right hws hitem
        exact ih (hitems item hitem) hw
      exact ⟨.array others, .array htype hothers⟩
    | _ => cases h
  | @object attributes hascending _ ih =>
    cases hjson with
    | null => exact ⟨.null, converted_null _⟩
    | @object members hmembers hall =>
      obtain ⟨hnames, hconvert⟩ := exists_of_convert_members hmembers hascending h
      obtain ⟨others, hothers⟩ : ∃ others, Aligned (fun name item other =>
          ∃ t, attributes.lookup name = some t ∧ Converted t item other) members others := by
        refine exists_forall₂ fun m hm => ?_
        obtain ⟨t, ht⟩ : ∃ t, attributes.lookup m.1 = some t := by
          rw [← Fields.mem_names_iff, hnames]
          exact List.mem_map_of_mem hm
        obtain ⟨w, hw⟩ := hconvert m.1 t m.2 ht (Fields.lookup_of_mem hmembers.distinct hm)
        obtain ⟨other, hother⟩ := ih _ (Fields.mem_of_lookup ht) (hall m hm) hw
        exact ⟨(m.1, other), rfl, t, ht, hother⟩
      exact ⟨.object others, .object hmembers hnames hothers⟩
    | _ => cases h

end Json

/-! ## Reading without a type -/

namespace Value

/-- The list of items that convert to their type is the value of an array of settled items. -/
theorem exists_settled_array {items : List Json} (hitems : ∀ item ∈ items, item.Settled)
    {ws : List Value}
    (hws : List.Forall₂ (fun item w => (item.under []).convert (Json.itemType items) = .ok w)
      items ws) :
    ∃ json : Json, json.Settled ∧ Value.list (Json.itemType items) ws = json.under [] := by
  have hfound : (Json.itemType items).Found :=
    Json.itemType_induction .dynamic fun item hitem =>
      Json.found_ownType (hitems item hitem).isData
  obtain ⟨others, hothers, hvalues⟩ : ∃ others,
      List.Forall₂ (Json.Converted (Json.itemType items)) items others ∧
        List.Forall₂ (fun w other => w = other.under [Json.itemType items]) ws others := by
    refine exists_related hws fun item hitem w hw => ?_
    obtain ⟨other, hother⟩ := Json.exists_converted hfound (hitems item hitem) hw
    exact ⟨other, hother, Except.ok.inj (hw.symm.trans (hother.convert_eq []))⟩
  -- the type of the items is found again
  have htype : Json.itemType others = Json.itemType items := by
    rw [Json.itemType_of_converted hothers, Ty.recast_self hfound]
  refine ⟨.array others, .array (fun other hother => ?_) (fun other hother => ?_), ?_⟩
  · obtain ⟨item, -, hitem⟩ := exists_mem_left hothers hother
    exact hitem.settled
  · obtain ⟨item, -, hitem⟩ := exists_mem_left hothers hother
    rw [htype]
    exact hitem.hasType
  · rw [eq_map_of_forall₂ hvalues.flip, Json.under, Json.itemsUnder_eq_map, htype]
    rfl

/-- **Whatever is read without a type is the value of a settled tree.** -/
theorem exists_settled_of_infer {json : Json} {v : Value} (h : infer json = .ok v)
    (hdata : json.isData = true) : ∃ other : Json, other.Settled ∧ v = other.under [] := by
  revert hdata
  apply infer_induction (P := fun json v => json.isData = true →
    ∃ other : Json, other.Settled ∧ v = other.under []) h
  case null => exact fun _ => ⟨.null, .null, rfl⟩
  case bool => exact fun b _ => ⟨.bool b, .bool b, rfl⟩
  case number =>
    exact fun n _ => ⟨.number (.double n.toDouble n.isFinite_toDouble), .double _ _, rfl⟩
  case string => exact fun s _ => ⟨.string s, .string s, rfl⟩
  case array =>
    intro items vs ws hvs hws hdata
    rw [Json.isData_array_iff] at hdata
    obtain ⟨others, hothers⟩ : ∃ others : List Json,
        List.Forall₂ (fun v other => other.Settled ∧ v = other.under []) vs others := by
      refine exists_forall₂ fun v hv => ?_
      obtain ⟨item, hitem, hread⟩ := exists_mem_left hvs hv
      exact hread (hdata item hitem)
    obtain rfl : vs = others.map (·.under []) :=
      eq_map_of_forall₂ (hothers.flip.imp fun _ _ h => h.2)
    rw [Json.commonType_under] at hws ⊢
    refine exists_settled_array (fun other hother => ?_) (List.forall₂_map_left_iff.mp hws)
    obtain ⟨v, -, hsettled, -⟩ := exists_mem_left hothers hother
    exact hsettled
  case object =>
    intro members vs hvs hdata
    obtain ⟨hascending, hall⟩ := Json.isData_object_iff.mp hdata
    obtain ⟨others, hothers⟩ : ∃ others : List (String × Json),
        Aligned (fun _ v other => other.Settled ∧ v = other.under []) vs others := by
      refine exists_forall₂ fun v hv => ?_
      obtain ⟨item, hitem, hread⟩ := hvs.exists_left hv
      obtain ⟨other, hother⟩ := hread (hall _ hitem)
      exact ⟨(v.1, other), rfl, hother⟩
    have hvalues : Aligned (fun _ other v => v = other.under []) others vs :=
      hothers.flip.imp fun _ _ h => ⟨h.1.symm, h.2.2⟩
    refine ⟨.object others, .object (Entries.ascending_of_aligned hothers
      (Entries.ascending_of_aligned hvs hascending)) fun m hm => ?_, ?_⟩
    · obtain ⟨v, -, hsettled, -⟩ := hothers.exists_left hm
      exact hsettled
    · rw [hvalues.eq_mapValues, Json.under, Json.membersUnder_nil]

end Value

/-- **Reading again.** What is read from data without a type is written as JSON that is read without
a type as the same value: with the same types, nulls and order of fields. -/
theorem infer_toJson {json : Json} (hdata : json.isData = true) {v : Value}
    (h : Value.infer json = .ok v) : Value.infer v.toJson = .ok v := by
  obtain ⟨other, hother, rfl⟩ := Value.exists_settled_of_infer h hdata
  rw [hother.toJson_under, hother.infer_eq]

/-! ### A cluster -/

/-- A cluster with nodes whose fields have different types, and with a grid in which some rows are
of another type than the first, or of no type. -/
def clusterJson : Json :=
  .object [("grid", .array [.array [.null, .string "x"], .array [.bool true, .string "0"], .null,
      .array []]),
    ("nodes", .array [.null,
      .object [("labels", .array []), ("port", .number (.int 22 (by decide)))],
      .object [("labels", .array [.string "a"]), ("port", .string "23")]])]

/-- Its second row was converted twice, to bools and then to strings. -/
example : (Value.infer clusterJson).map Value.toJson =
    .ok (.object [("grid", .array [.array [.null, .string "x"],
        .array [.string "true", .string "false"], .null, .array []]),
      ("nodes", .array [.null,
        .object [("labels", .array []),
          ("port", .number (.double ⟨0x4036000000000000⟩ (by decide)))],
        .object [("labels", .array [.string "a"]),
          ("port", .number (.double ⟨0x4037000000000000⟩ (by decide)))]])]) := by rfl

/-- The cluster is read from what is written of it. -/
theorem infer_toJson_cluster :
    clusterJson.isData = true ∧ ∃ v, Value.infer clusterJson = .ok v ∧
      Value.infer v.toJson = .ok v := by
  have hdata : clusterJson.isData = true := by decide
  obtain ⟨v, hv⟩ : ∃ v, Value.infer clusterJson = .ok v := ⟨_, rfl⟩
  exact ⟨hdata, v, hv, infer_toJson hdata hv⟩

end ProviderMock
