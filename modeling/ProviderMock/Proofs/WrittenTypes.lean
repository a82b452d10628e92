import ProviderMock.Proofs.Conversion
import ProviderMock.Proofs.Decoding
import ProviderMock.Proofs.Reordering
import ProviderMock.Ty.Json

/-!
# The notation of types

Each type is written in one way, up to the order of attributes, and nothing else is read.

* **reading back** — `Ty.ofJson_toJson`: what a type is written as is read as `Ty.sorted`, the type
  with the attributes of object types in ascending order.
* **exactness** — `Ty.toJson_of_ofJson`: what is read as a type is what the type is written as.

`Ty.ofJson_induction` says once what is read at all; exactness has one case for each.
-/

namespace ProviderMock

open Fields (Aligned)

namespace Ty

/-- The four names of primitive types are written as they are read. -/
theorem toJson_of_ofName {name : String} {t : Ty} (h : ofName name = .ok t) :
    t.toJson = .string name ∧ t.isWellFormed = true := by
  unfold ofName at h
  split at h <;> first | cases h; exact ⟨rfl, rfl⟩ | cases h

theorem ofMembers_eq_mapM (members : List (String × Json)) :
    ofMembers members = members.mapM fun member => do
      let t ← ofJson member.2
      return (member.1, t) := by
  induction members with
  | nil => rfl
  | cons member rest ih => simp only [ofMembers, List.mapM_cons, ih, bind_assoc, pure_bind]

/-- Members are read if each of them is, and name the attributes. -/
theorem ofMembers_eq_ok_iff {members : List (String × Json)} {ts : List (String × Ty)} :
    ofMembers members = .ok ts ↔ Aligned (fun _ json t => ofJson json = .ok t) members ts := by
  rw [ofMembers_eq_mapM, mapM_named_eq_ok_iff]

/-- Induction on what is read as a type: a relation of JSON and types holds of all of it if it holds
of the names of primitive types and passes from element types and attributes to what holds them. -/
theorem ofJson_induction {P : Json → Ty → Prop} {json : Json} {t : Ty} (h : ofJson json = .ok t)
    (primitive : ∀ name t, ofName name = .ok t → P (.string name) t)
    (list : ∀ e u, P e u → P (.array [.string "list", e]) (.list u))
    (set : ∀ e u, P e u → P (.array [.string "set", e]) (.set u))
    (map : ∀ e u, P e u → P (.array [.string "map", e]) (.map u))
    (object : ∀ members ts, Aligned (fun _ => P) members ts →
      P (.array [.string "object", .object members]) (.object ts)) : P json t := by
  -- the attributes of an object type are two steps down, so a tree also answers for its members
  suffices hread : (∀ t, ofJson json = .ok t → P json t) ∧
      ∀ members, json = .object members → ∀ m ∈ members, ∀ t, ofJson m.2 = .ok t → P m.2 t from
    hread.1 t h
  clear h
  induction json using Json.induction with
  | null | bool _ | number _ => exact ⟨nofun, nofun⟩
  | string name => exact ⟨primitive name, nofun⟩
  | array items ih =>
    refine ⟨fun t h => ?_, nofun⟩
    unfold ofJson at h
    split at h
    case h_2 e heq =>
      obtain rfl := Json.array.inj heq
      obtain ⟨u, hu, rfl⟩ := map_eq_ok_iff.mp h
      exact list e u ((ih e (by simp)).1 u hu)
    case h_3 e heq =>
      obtain rfl := Json.array.inj heq
      obtain ⟨u, hu, rfl⟩ := map_eq_ok_iff.mp h
      exact set e u ((ih e (by simp)).1 u hu)
    case h_4 e heq =>
      obtain rfl := Json.array.inj heq
      obtain ⟨u, hu, rfl⟩ := map_eq_ok_iff.mp h
      exact map e u ((ih e (by simp)).1 u hu)
    case h_5 members heq =>
      obtain rfl := Json.array.inj heq
      obtain ⟨ts, hts, rfl⟩ := map_eq_ok_iff.mp h
      refine object members ts ((ofMembers_eq_ok_iff.mp hts).imp fun name json t hmem ht => ?_)
      exact (ih (.object members) (by simp)).2 members rfl (name, json) hmem t ht
    all_goals first | cases h | contradiction
  | object members ih =>
    refine ⟨nofun, fun others heq m hm t ht => ?_⟩
    obtain rfl := Json.object.inj heq
    exact (ih m hm).1 t ht

/-! ## Exactness -/

/-- **What is read as a type is what the type is written as,** and no attribute is named twice in
it. -/
theorem toJson_of_ofJson {json : Json} {t : Ty} (h : ofJson json = .ok t)
    (hdata : json.isData = true) : t.toJson = json ∧ t.isWellFormed = true := by
  revert hdata
  apply ofJson_induction
    (P := fun json t => json.isData = true → t.toJson = json ∧ t.isWellFormed = true) h
  case primitive => exact fun name t ht _ => toJson_of_ofName ht
  case list =>
    intro e u hu hdata
    obtain ⟨rfl, hwell⟩ := hu (Json.isData_array_iff.mp hdata e (by simp))
    exact ⟨rfl, hwell⟩
  case set =>
    intro e u hu hdata
    obtain ⟨rfl, hwell⟩ := hu (Json.isData_array_iff.mp hdata e (by simp))
    exact ⟨rfl, hwell⟩
  case map =>
    intro e u hu hdata
    obtain ⟨rfl, hwell⟩ := hu (Json.isData_array_iff.mp hdata e (by simp))
    exact ⟨rfl, hwell⟩
  case object =>
    intro members ts hts hdata
    obtain ⟨hascending, hall⟩ :=
      Json.isData_object_iff.mp (Json.isData_array_iff.mp hdata (.object members) (by simp))
    have hread : Aligned (fun _ json t => t.toJson = json ∧ t.isWellFormed = true) members ts :=
      hts.imp fun name json t hmem ht => ht (hall _ hmem)
    have hwritten : attributesToJson ts = members := by
      have hvalues := Aligned.mapValues_eq (f := id) (hread.imp fun _ _ _ _ h => h.1.symm)
      rw [attributesToJson_eq_mapValues, ← hvalues]
      exact List.map_id members
    refine ⟨?_, isWellFormed_object_iff.mpr ⟨hts.distinct hascending.distinct, fun a ha => ?_⟩⟩
    · rw [toJson, hwritten, Json.ofMembers, Entries.ofList_eq_self hascending]
    · obtain ⟨json, -, -, hwell⟩ := hread.exists_left ha
      exact hwell

/-! ## Reading back -/

mutual

/-- A type with the attributes of all object types in it in ascending order. -/
def sorted : Ty → Ty
  | .list e => .list (sorted e)
  | .set e => .set (sorted e)
  | .map e => .map (sorted e)
  | .object attributes => .object (Entries.ofList (sortedAttributes attributes))
  | t => t
termination_by structural t => t

/-- Attributes in their order, with the attributes in their types in ascending order. -/
def sortedAttributes : List (String × Ty) → List (String × Ty)
  | [] => []
  | (name, t) :: rest => (name, sorted t) :: sortedAttributes rest
termination_by structural attributes => attributes

end

theorem sortedAttributes_eq_mapValues (attributes : List (String × Ty)) :
    sortedAttributes attributes = Fields.mapValues sorted attributes := by
  induction attributes with
  | nil => rfl
  | cons first rest ih =>
    obtain ⟨name, t⟩ := first
    rw [sortedAttributes, ih]
    rfl

theorem distinct_sortedAttributes {attributes : List (String × Ty)}
    (h : Fields.Distinct attributes) : Fields.Distinct (sortedAttributes attributes) := by
  rw [sortedAttributes_eq_mapValues, Fields.Distinct, Fields.names_mapValues]
  exact h

/-- In ascending order there are the same attributes. -/
theorem perm_names_sorted {attributes : List (String × Ty)} (h : Fields.Distinct attributes) :
    (Fields.names (Entries.ofList (sortedAttributes attributes))).Perm (Fields.names attributes) := by
  refine (Entries.perm_names_ofList (distinct_sortedAttributes h)).trans ?_
  rw [sortedAttributes_eq_mapValues, Fields.names_mapValues]

/-- In ascending order each attribute has its type in ascending order. -/
theorem lookup_sorted {attributes : List (String × Ty)} (h : Fields.Distinct attributes)
    (name : String) : (Entries.ofList (sortedAttributes attributes)).lookup name =
      (attributes.lookup name).map sorted := by
  rw [Entries.lookup_ofList (distinct_sortedAttributes h), sortedAttributes_eq_mapValues,
    Fields.lookup_mapValues]

/-- A type in ascending order names nothing twice. -/
theorem isWellFormed_sorted {t : Ty} (ht : t.isWellFormed = true) :
    t.sorted.isWellFormed = true := by
  induction t using Ty.induction with
  | string | number | bool | dynamic => rfl
  | list e ih | set e ih | map e ih => exact ih ht
  | object attributes ih =>
    obtain ⟨hdistinct, hall⟩ := isWellFormed_object_iff.mp ht
    refine isWellFormed_object_iff.mpr ⟨(Entries.ascending_ofList _).distinct, fun a ha => ?_⟩
    have hmem := Entries.mem_of_mem_ofList ha
    rw [sortedAttributes_eq_mapValues] at hmem
    obtain ⟨b, hb, rfl⟩ := List.mem_map.mp hmem
    exact ih b hb (hall b hb)

/-- A type in ascending order is the same type. -/
theorem same_sorted {t : Ty} (ht : t.isWellFormed = true) : t.sorted.same t = true := by
  induction t using Ty.induction with
  | string | number | bool | dynamic => rfl
  | list e ih | set e ih | map e ih => exact ih ht
  | object attributes ih =>
    obtain ⟨hdistinct, hall⟩ := isWellFormed_object_iff.mp ht
    refine (same_object_iff_of_distinct (Entries.ascending_ofList _).distinct).mpr
      ⟨perm_names_sorted hdistinct, fun name u a hu ha => ?_⟩
    rw [lookup_sorted hdistinct, ha] at hu
    obtain rfl := Option.some.inj hu
    have hmem := Fields.mem_of_lookup ha
    exact ih _ hmem (hall _ hmem)

/-- A type is the same as in ascending order. -/
theorem same_sorted_right {t : Ty} (ht : t.isWellFormed = true) : t.same t.sorted = true :=
  same_symm (isWellFormed_sorted ht) (same_sorted ht)

/-- **What a type is written as is read** as the type with its attributes in ascending order. -/
theorem ofJson_toJson (t : Ty) : ofJson t.toJson = .ok t.sorted := by
  induction t using Ty.induction with
  | string | number | bool | dynamic => rfl
  | list e ih => exact map_eq_ok_iff.mpr ⟨e.sorted, ih, rfl⟩
  | set e ih => exact map_eq_ok_iff.mpr ⟨e.sorted, ih, rfl⟩
  | map e ih => exact map_eq_ok_iff.mpr ⟨e.sorted, ih, rfl⟩
  | object attributes ih =>
    have hread : Aligned (fun _ json t => ofJson json = .ok t) (attributesToJson attributes)
        (sortedAttributes attributes) := by
      rw [attributesToJson_eq_mapValues, sortedAttributes_eq_mapValues]
      refine List.forall₂_map_left_iff.mpr (List.forall₂_map_right_iff.mpr ?_)
      exact List.forall₂_same.mpr fun a ha => ⟨rfl, ih a ha⟩
    exact map_eq_ok_iff.mpr ⟨_, ofMembers_eq_ok_iff.mpr (Entries.aligned_ofList hread), rfl⟩

/-- What a type is written as is read as the type, up to the order of attributes. -/
theorem exists_ofJson_toJson {t : Ty} (ht : t.isWellFormed = true) :
    ∃ u, ofJson t.toJson = .ok u ∧ u.same t = true :=
  ⟨t.sorted, ofJson_toJson t, same_sorted ht⟩

/-- **Types have one notation.** A well-formed type is read back from what it is written as, up to
the order of attributes; what is read as a type is what the type is written as; and so the JSON of
well-formed types, and no other, is read as a type. -/
theorem ofJson_exact {t : Ty} (ht : t.isWellFormed = true) {json : Json}
    (hdata : json.isData = true) :
    (∃ u, ofJson t.toJson = .ok u ∧ u.same t = true) ∧
      (∀ u, ofJson json = .ok u → u.toJson = json) ∧
      ((∃ u, ofJson json = .ok u) ↔ ∃ u : Ty, u.isWellFormed = true ∧ u.toJson = json) := by
  refine ⟨exists_ofJson_toJson ht, fun u hu => (toJson_of_ofJson hu hdata).1, ?_, ?_⟩
  · rintro ⟨u, hu⟩
    obtain ⟨hwritten, hwell⟩ := toJson_of_ofJson hu hdata
    exact ⟨u, hwell, hwritten⟩
  · rintro ⟨u, hwell, rfl⟩
    obtain ⟨w, hw, -⟩ := exists_ofJson_toJson hwell
    exact ⟨w, hw⟩

/-! ### Endpoints -/

/-- The type of sets of endpoints, whose attributes are not in ascending order. -/
def endpoints : Ty := .set (.object [("port", .number), ("hosts", .list .string)])

/-- The notation of maps of objects with two attributes. -/
def labelsJson : Json :=
  .array [.string "map", .array [.string "object",
    .object [("key", .string "string"), ("value", .string "dynamic")]]]

example : (ofJson endpoints.toJson).toOption =
    some (.set (.object [("hosts", .list .string), ("port", .number)])) := by rfl

/-- The type of endpoints is read back, and the notation of labels is that of a type. -/
theorem ofJson_exact_endpoints :
    endpoints.isWellFormed = true ∧ labelsJson.isData = true ∧
      (∃ u, ofJson endpoints.toJson = .ok u ∧ u.same endpoints = true) ∧
      (∀ u, ofJson labelsJson = .ok u → u.toJson = labelsJson) ∧
      ((∃ u, ofJson labelsJson = .ok u) ↔
        ∃ u : Ty, u.isWellFormed = true ∧ u.toJson = labelsJson) :=
  ⟨by decide, by decide, ofJson_exact (by decide) (by decide)⟩

end Ty

end ProviderMock
