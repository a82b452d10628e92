import ProviderMock.Proofs.Decoding

/-!
# Values under types

Reading without a type gives every list the type of its first element that is not null, and
converts the elements to it. In a list of lists the elements of the inner lists are converted twice,
to the type of the inner list first and then to the type of the outer one, and so on outwards. The
types of nulls and of elements come from this; all else in a value is what was written.

* **layout** — `Json.under` is the value of JSON under a row of types, one for each conversion and
  the last one for the outermost. Under no types it has its own type, `Json.ty_under_nil`.
* **conversion** — `Json.convert_under`: where JSON has a type already, conversion to the type puts
  it at the end of the row and does nothing else. `Json.exists_of_convert_array` and
  `Json.exists_of_convert_members` say what has to convert of the parts.
-/

namespace ProviderMock

open Fields (Aligned)

/-! ## Rows of types -/

namespace Ty

/-- The type of the elements of a list. -/
def element? : Ty → Option Ty
  | .list e => some e
  | _ => none

/-- The type of an attribute of an object. -/
def attribute? (name : String) : Ty → Option Ty
  | .object attributes => attributes.lookup name
  | _ => none

/-- The types of elements that the list types in a row have. -/
def elementTypes (types : List Ty) : List Ty := types.filterMap element?

/-- The types of an attribute that the object types in a row have. -/
def attributeTypes (name : String) (types : List Ty) : List Ty := types.filterMap (attribute? name)

/-- The last of a row of types that is not dynamic. -/
def latest (types : List Ty) : Ty :=
  types.foldl (fun t u => match u with | .dynamic => t | u => u) .dynamic

variable (types : List Ty)

theorem elementTypes_concat_dynamic : elementTypes (types ++ [.dynamic]) = elementTypes types := by
  simp [elementTypes, element?, List.filterMap_cons]

theorem elementTypes_concat_list (e : Ty) :
    elementTypes (types ++ [.list e]) = elementTypes types ++ [e] := by
  simp [elementTypes, element?]

theorem attributeTypes_concat_dynamic (name : String) :
    attributeTypes name (types ++ [.dynamic]) = attributeTypes name types := by
  simp [attributeTypes, attribute?, List.filterMap_cons]

theorem attributeTypes_concat_object {name : String} {attributes : List (String × Ty)} {t : Ty}
    (h : attributes.lookup name = some t) :
    attributeTypes name (types ++ [.object attributes]) = attributeTypes name types ++ [t] := by
  simp [attributeTypes, attribute?, h]

theorem latest_concat_dynamic : latest (types ++ [.dynamic]) = latest types := by
  simp [latest]

theorem latest_concat {t : Ty} (h : t ≠ .dynamic) : latest (types ++ [t]) = t := by
  cases t <;> first | exact absurd rfl h | simp [latest]

end Ty

namespace Json

/-- Whether a tree is null. -/
def isNull : Json → Bool
  | .null => true
  | _ => false

mutual

/-- The type that a tree is read with. -/
def ownType : Json → Ty
  | .null => .dynamic
  | .bool _ => .bool
  | .number _ => .number
  | .string _ => .string
  | .array items => .list (itemType items)
  | .object members => .object (memberTypes members)
termination_by structural json => json

/-- The type of the first item that is not null. -/
def itemType : List Json → Ty
  | [] => .dynamic
  | item :: rest => if item.isNull then itemType rest else ownType item
termination_by structural items => items

/-- The types of members, under their names. -/
def memberTypes : List (String × Json) → List (String × Ty)
  | [] => []
  | (name, item) :: rest => (name, ownType item) :: memberTypes rest
termination_by structural members => members

end

mutual

/-- The value of a tree that was converted to types, one after the other. What is in it was
converted to their parts, and the items of an array before all to the type of the array. -/
def under : Json → List Ty → Value
  | .null, types => .null (Ty.latest types)
  | .bool b, _ => .bool b
  | .number n, _ => .number n.toDouble
  | .string s, _ => .string s
  | .array items, types =>
    .list ((Ty.elementTypes types).getLastD (itemType items))
      (itemsUnder items (itemType items :: Ty.elementTypes types))
  | .object members, types => .object (membersUnder members types)
termination_by structural json => json

/-- The values of items under types. -/
def itemsUnder : List Json → List Ty → List Value
  | [], _ => []
  | item :: rest, types => under item types :: itemsUnder rest types
termination_by structural items => items

/-- The values of members under the types that their attributes have in types. -/
def membersUnder : List (String × Json) → List Ty → List (String × Value)
  | [], _ => []
  | (name, item) :: rest, types =>
    (name, under item (Ty.attributeTypes name types)) :: membersUnder rest types
termination_by structural members => members

end

/-- A tree has a type as it is if a conversion to the type leaves all that was written. -/
inductive HasType : Json → Ty → Prop where
  | dynamic (json : Json) : HasType json .dynamic
  | null (t : Ty) : HasType .null t
  | bool (b : Bool) : HasType (.bool b) .bool
  | number (n : Json.Number) : HasType (.number n) .number
  | string (s : String) : HasType (.string s) .string
  | array {e : Ty} {items : List Json} (h : ∀ item ∈ items, HasType item e) :
      HasType (.array items) (.list e)
  | object {attributes : List (String × Ty)} {members : List (String × Json)}
      (hnames : Fields.names attributes = Fields.names members)
      (h : ∀ name t item, attributes.lookup name = some t → members.lookup name = some item →
        HasType item t) : HasType (.object members) (.object attributes)

/-! ## Parts -/

theorem memberTypes_eq_mapValues (members : List (String × Json)) :
    memberTypes members = Fields.mapValues ownType members := by
  induction members with
  | nil => rfl
  | cons member rest ih =>
    obtain ⟨name, item⟩ := member
    rw [memberTypes, ih]
    rfl

theorem itemsUnder_eq_map (items : List Json) (types : List Ty) :
    itemsUnder items types = items.map (·.under types) := by
  induction items with
  | nil => rfl
  | cons item rest ih => rw [itemsUnder, ih, List.map_cons]

theorem aligned_membersUnder (members : List (String × Json)) (types : List Ty) :
    Aligned (fun name item v => v = item.under (Ty.attributeTypes name types)) members
      (membersUnder members types) := by
  induction members with
  | nil => exact .nil
  | cons member rest ih => exact .cons ⟨rfl, rfl⟩ ih

theorem lookup_membersUnder (members : List (String × Json)) (types : List Ty) (name : String) :
    (membersUnder members types).lookup name =
      (members.lookup name).map (·.under (Ty.attributeTypes name types)) := by
  induction members with
  | nil => rfl
  | cons member rest ih =>
    obtain ⟨n, item⟩ := member
    rw [membersUnder, Fields.lookup_cons, Fields.lookup_cons]
    split
    · rename_i hn
      rw [hn]
      rfl
    · exact ih

/-- Under no types nothing is said of members either. -/
theorem membersUnder_nil (members : List (String × Json)) :
    membersUnder members [] = Fields.mapValues (·.under []) members :=
  (aligned_membersUnder members []).eq_mapValues

theorem isNull_under (json : Json) (types : List Ty) : (json.under types).isNull = json.isNull := by
  cases json <;> rfl

/-- What holds of the type of every item, and of the dynamic one, holds of the type of the items. -/
theorem itemType_induction {P : Ty → Prop} {items : List Json} (dynamic : P .dynamic)
    (own : ∀ item ∈ items, P item.ownType) : P (itemType items) := by
  induction items with
  | nil => exact dynamic
  | cons item rest ih =>
    rw [itemType]
    split
    · exact ih fun other hother => own other (List.mem_cons_of_mem _ hother)
    · exact own item List.mem_cons_self

/-! ## Under no types -/

/-- Under no types a tree has its own type. -/
theorem ty_under_nil (json : Json) : (json.under []).ty = json.ownType := by
  induction json using Json.induction with
  | object members ih =>
    have hmembers : Aligned (fun _ item v => item.ownType = v.ty) members
        (Fields.mapValues (·.under []) members) := by
      refine (Fields.aligned_mapValues _ members).imp fun name item v hmem hv => ?_
      rw [hv]
      exact (ih _ hmem).symm
    rw [under, Value.ty, ownType, Value.fieldTypes_eq_mapValues, memberTypes_eq_mapValues,
      membersUnder_nil, hmembers.mapValues_eq]
  | _ => rfl

/-- The common type of the values of items is the type of the items. -/
theorem commonType_under (items : List Json) :
    Value.commonType (items.map (·.under [])) = itemType items := by
  induction items with
  | nil => rfl
  | cons item rest ih =>
    rw [itemType, ← ih, ← ty_under_nil item]
    cases hnull : item.isNull <;>
      simp [Value.commonType, Value.firstType, isNull_under, hnull]

/-! ## Conversion -/

/-- The dynamic type changes nothing at the end of a row. -/
theorem under_concat_dynamic (json : Json) (types : List Ty) :
    json.under (types ++ [.dynamic]) = json.under types := by
  cases json with
  | null => rw [under, under, Ty.latest_concat_dynamic]
  | array items => rw [under, under, Ty.elementTypes_concat_dynamic]
  | object members =>
    have hsame : membersUnder members (types ++ [.dynamic]) = membersUnder members types := by
      induction members with
      | nil => rfl
      | cons member rest ih => rw [membersUnder, membersUnder, Ty.attributeTypes_concat_dynamic, ih]
    rw [under, under, hsame]
  | _ => rfl

/-- The value of an array converts to a list if the values of the items convert. -/
theorem convert_array_under {items others : List Json} {types rest : List Ty} {e : Ty}
    (h : List.Forall₂ (fun item other =>
      (item.under (itemType items :: Ty.elementTypes types)).convert e =
        .ok (other.under (itemType others :: (Ty.elementTypes rest ++ [e])))) items others) :
    ((Json.array items).under types).convert (.list e) =
      .ok ((Json.array others).under (rest ++ [.list e])) := by
  rw [under, under, Ty.elementTypes_concat_list, List.getLastD_concat]
  refine Value.convert_list rfl ?_
  rwa [itemsUnder_eq_map, itemsUnder_eq_map, List.forall₂_map_left_iff, List.forall₂_map_right_iff]

/-- The value of an object converts to an object type with its names if the values of the members
convert. -/
theorem convert_object_under {members others : List (String × Json)} {types rest : List Ty}
    {attributes : List (String × Ty)} (hdistinct : Fields.Distinct members)
    (hnames : Fields.names attributes = Fields.names members)
    (hothers : Fields.names members = Fields.names others)
    (h : ∀ name t item other, attributes.lookup name = some t → members.lookup name = some item →
      others.lookup name = some other →
      (item.under (Ty.attributeTypes name types)).convert t =
        .ok (other.under (Ty.attributeTypes name rest ++ [t]))) :
    ((Json.object members).under types).convert (.object attributes) =
      .ok ((Json.object others).under (rest ++ [.object attributes])) := by
  have hmembers := (aligned_membersUnder members types).names_eq
  have hresults := (aligned_membersUnder others (rest ++ [.object attributes])).names_eq
  have hattributes : Fields.Distinct attributes := by
    rw [Fields.Distinct, hnames]
    exact hdistinct
  rw [under, under]
  refine Value.convert_object rfl (fun f hf => ?_) (Fields.aligned_of_lookup hattributes
    (hnames.trans (hothers.trans hresults)) fun name t w ht hw => ?_)
  · rw [Fields.has_iff, hnames, hmembers]
    exact List.mem_map_of_mem hf
  · rw [lookup_membersUnder] at hw
    obtain ⟨other, hother, rfl⟩ := Option.map_eq_some_iff.mp hw
    obtain ⟨item, hitem⟩ : ∃ item, members.lookup name = some item := by
      rw [← Fields.mem_names_iff, hothers]
      exact Fields.mem_names_iff.mpr ⟨other, hother⟩
    refine ⟨_, by rw [lookup_membersUnder, hitem]; rfl, ?_⟩
    rw [Ty.attributeTypes_concat_object _ ht]
    exact h name t item other ht hitem hother

/-- **Conversion to a type that JSON has** puts the type at the end of the row. -/
theorem convert_under {json : Json} {t : Ty} (h : json.HasType t) (hdata : json.isData = true)
    (types : List Ty) : (json.under types).convert t = .ok (json.under (types ++ [t])) := by
  induction h generalizing types with
  | dynamic json =>
    rw [under_concat_dynamic]
    rfl
  | null t =>
    cases t with
    | dynamic =>
      rw [under_concat_dynamic]
      rfl
    | _ =>
      rw [under, under, Ty.latest_concat _ (by simp)]
      rfl
  | bool b | number n | string s => rfl
  | array _ ih =>
    rw [isData_array_iff] at hdata
    exact convert_array_under (List.forall₂_same.mpr fun item hitem =>
      ih item hitem (hdata item hitem) _)
  | object hnames _ ih =>
    obtain ⟨hascending, hall⟩ := isData_object_iff.mp hdata
    refine convert_object_under hascending.distinct hnames rfl fun name t item other ht hitem h => ?_
    obtain rfl := Option.some.inj (hitem.symm.trans h)
    exact ih name t item ht hitem (hall _ (Fields.mem_of_lookup hitem)) _

/-- The value of an array converts to a list only if the values of the items convert. -/
theorem exists_of_convert_array {items : List Json} {types : List Ty} {e : Ty} {w : Value}
    (h : ((Json.array items).under types).convert (.list e) = .ok w) :
    ∃ ws, List.Forall₂
      (fun item w => (item.under (itemType items :: Ty.elementTypes types)).convert e = .ok w)
      items ws ∧ w = .list e ws := by
  obtain ⟨ws, hws, rfl⟩ := Value.exists_of_convert_list rfl h
  rw [itemsUnder_eq_map, List.forall₂_map_left_iff] at hws
  exact ⟨ws, hws, rfl⟩

/-- The value of an object converts to a map only if the values of the members convert. -/
theorem exists_of_convert_entries {members : List (String × Json)} {types : List Ty} {e : Ty}
    {w : Value} (h : ((Json.object members).under types).convert (.map e) = .ok w) :
    ∃ ws, Aligned
      (fun name item w => (item.under (Ty.attributeTypes name types)).convert e = .ok w)
      members ws ∧ w = Value.mapOf e ws := by
  obtain ⟨ws, hws, rfl⟩ := Value.exists_of_convert_map rfl h
  refine ⟨ws, forall₂_trans (aligned_membersUnder members types) hws ?_, rfl⟩
  rintro m - x - w - ⟨hname, hx⟩ ⟨hname', hw⟩
  rw [hx] at hw
  exact ⟨hname.trans hname', hw⟩

/-- The value of an object converts to an object type with ascending names only if it has just these
names, and the value of every member converts. -/
theorem exists_of_convert_members {members : List (String × Json)}
    {attributes : List (String × Ty)} (hmembers : Entries.Ascending members)
    (hattributes : Entries.Ascending attributes) {types : List Ty} {w : Value}
    (h : ((Json.object members).under types).convert (.object attributes) = .ok w) :
    Fields.names attributes = Fields.names members ∧
      ∀ name t item, attributes.lookup name = some t → members.lookup name = some item →
        ∃ w, (item.under (Ty.attributeTypes name types)).convert t = .ok w := by
  obtain ⟨hextra, ws, hws, rfl⟩ := Value.exists_of_convert_object rfl h
  have hnames := (aligned_membersUnder members types).names_eq
  have hperm : (Fields.names attributes).Perm (Fields.names members) := by
    rw [List.perm_ext_iff_of_nodup hattributes.distinct hmembers.distinct]
    intro name
    constructor
    · intro hname
      rw [hws.names_eq] at hname
      obtain ⟨w, hw⟩ := Fields.mem_names_iff.mp hname
      obtain ⟨-, -, x, hx, -⟩ := hws.lookup hw
      rw [hnames]
      exact Fields.mem_names_iff.mpr ⟨x, hx⟩
    · intro hname
      rw [hnames] at hname
      obtain ⟨x, hx⟩ := Fields.mem_names_iff.mp hname
      exact Fields.has_iff.mp (hextra _ (Fields.mem_of_lookup hx))
  refine ⟨Entries.names_eq_of_perm hattributes hmembers hperm, fun name t item ht hitem => ?_⟩
  obtain ⟨⟨n, w⟩, -, hn, x, hx, hw⟩ := exists_mem_right hws (Fields.mem_of_lookup ht)
  rw [lookup_membersUnder, hitem] at hx
  obtain rfl := Option.some.inj hx
  exact ⟨w, hw⟩

end Json

end ProviderMock
