import ProviderMock.Proofs.Decoding
import ProviderMock.Proofs.Sameness

/-!
# Conversion as a projection

Conversion takes every value that converts at all to one of the wanted type, and those that are of
the type already to themselves.

* **onto the type** — `Value.hasType_ty_isNull_of_convert`: what comes out has the type, whatever
  went in, and is null only if a null went in.
* **identity** — `Value.exists_convert_rearranged`: what conforms to a type converts to it, and
  nothing but the order of attributes changes. The sets of a value lose nothing, because elements
  that are apart stay apart in another order.
-/

namespace ProviderMock

namespace Value

/-! ## Onto the type -/

/-- What has a type without dynamic parts is of this type, and of no other. -/
theorem HasType.ty_eq {v : Value} {t : Ty} (h : v.HasType t) (hstatic : t.isStatic = true) :
    v.ty = t := by
  induction t using Ty.induction generalizing v with
  | dynamic => cases hstatic
  | string | number | bool | list e _ | set e _ | map e _ => cases h <;> rfl
  | object attributes ih =>
    cases h with
    | null | unknown => rfl
    | object hnames h =>
      have haligned : Fields.Aligned (fun _ t v => id t = ty v) attributes _ :=
        (Fields.aligned_iff.mpr ⟨hnames, h⟩).imp fun name t v hmem hv =>
          (ih _ hmem hv (Ty.isStatic_object_iff.mp hstatic _ hmem)).symm
      rw [ty, fieldTypes_eq_mapValues, ← haligned.mapValues_eq, Fields.mapValues]
      simp

/-- **Conversion is sound.** Whatever a value is, if it converts to a type then the result has the
type: it carries the wanted types and names all through, in their order. Without dynamic parts it is
of no other type. It is null exactly if the value is. -/
theorem hasType_ty_isNull_of_convert {t : Ty} {v w : Value} (h : v.convert t = .ok w) :
    w.HasType t ∧ (t.isStatic = true → w.ty = t) ∧ (w.isNull = true ↔ v.isNull = true) :=
  ⟨hasType_of_convert h, (hasType_of_convert h).ty_eq, by rw [isNull_of_convert h]⟩

/-! ### A box -/

/-- What there is to know about a box. -/
def box : Ty :=
  .object [("labels", .list .string), ("sizes", .set .number),
    ("lids", .map (.object [("shut", .bool)]))]

/-- A box as it may come out of a script: a set of labels with the same one twice, among values of
other types; sizes that are strings, unknown and null; lids that are objects and maps. -/
def looseBox : Value :=
  .map .dynamic [
    ("labels", .set .string [.string "a", .bool true, .string "a", .null .number]),
    ("lids", .object [("top", .null .dynamic), ("back", .map .string [("shut", .string "1")])]),
    ("sizes", .list .string
      [.string "40", .unknown .string, .number ⟨0x4044000000000000⟩, .null .dynamic])]

/-- The box with the types that are wanted. -/
def tidyBox : Value :=
  .object [
    ("labels", .list .string [.string "a", .string "true", .string "a", .null .string]),
    ("sizes", .set .number [.number ⟨0x4044000000000000⟩, .unknown .number, .null .number]),
    ("lids", .map (.object [("shut", .bool)]) [("back", .object [("shut", .bool true)]),
      ("top", .null (.object [("shut", .bool)]))])]

/-- However loose the box is, what it converts to has the type. -/
theorem hasType_ty_isNull_of_convert_looseBox :
    looseBox.convert box = .ok tidyBox ∧ box.isStatic = true ∧ tidyBox.HasType box ∧
      tidyBox.ty = box ∧ (tidyBox.isNull = true ↔ looseBox.isNull = true) := by
  have h : looseBox.convert box = .ok tidyBox := by rfl
  have hstatic : box.isStatic = true := by decide
  obtain ⟨htype, hty, hnull⟩ := hasType_ty_isNull_of_convert h
  exact ⟨h, hstatic, htype, hty hstatic, hnull⟩

/-! ## Identity -/

/-- A value converts to a type, and nothing but the order of attributes changes. -/
def IsKept (v : Value) (t : Ty) : Prop := ∃ w, v.convert t = .ok w ∧ v.Rearranged w

section Containers

variable {t u : Ty}

/-- A list is kept if its elements are. -/
theorem isKept_list {vs : List Value} (htu : u.same t = true) (h : ∀ v ∈ vs, v.IsKept t) :
    (list u vs).IsKept (.list t) := by
  obtain ⟨ws, hws⟩ := exists_forall₂ h
  exact ⟨_, convert_list rfl (hws.imp fun _ _ h => h.1), .list htu (hws.imp fun _ _ h => h.2)⟩

/-- A proper set is kept if its elements are: they are apart, and they still are in another order,
so collecting them leaves none out. -/
theorem isKept_set {vs : List Value} (hset : (set u vs).Proper) (htu : u.same t = true)
    (h : ∀ v ∈ vs, v.IsKept t) : (set u vs).IsKept (.set t) := by
  obtain ⟨ws, hws⟩ := exists_forall₂ h
  have hrearranged := hws.imp fun _ _ h => h.2
  have hapart : ws.Pairwise fun v w => v.same w = false :=
    pairwise_of_rearranged (fun v hv => (hset.of_mem_parts hv).wellFormed) hrearranged hset.pairwise
  refine ⟨_, convert_set rfl (hws.imp fun _ _ h => h.1), ?_⟩
  rw [setOf, distinct_eq_self hapart]
  exact .set htu hrearranged

/-- A proper map is kept if its entries are: its keys ascend already. -/
theorem isKept_map {entries : List (String × Value)} (hmap : (map u entries).Proper)
    (htu : u.same t = true) (h : ∀ e ∈ entries, e.2.IsKept t) :
    (map u entries).IsKept (.map t) := by
  obtain ⟨ws, hws⟩ : ∃ ws, Fields.Aligned (fun _ v w => v.convert t = .ok w ∧ v.Rearranged w)
      entries ws := Fields.exists_aligned h
  have hascending := Entries.ascending_of_aligned hws (ascending_of_isWellFormed hmap.wellFormed)
  obtain ⟨hkeys, hvalues⟩ := Fields.aligned_iff.mp hws
  refine ⟨_, convert_map rfl (hws.imp fun _ _ _ _ h => h.1), ?_⟩
  rw [mapOf, Entries.ofList_eq_self hascending]
  exact .map htu hkeys (hvalues.imp fun _ _ h => h.2)

/-- A proper object with the names of the attributes is kept if its fields are. They take the order
of the attributes. -/
theorem isKept_object {fields : List (String × Value)} {attributes : List (String × Ty)}
    (hobject : (object fields).Proper) (hattributes : Fields.Distinct attributes)
    (hnames : ∀ name, Fields.has fields name = Fields.has attributes name)
    (h : ∀ name v t, fields.lookup name = some v → attributes.lookup name = some t → v.IsKept t) :
    (object fields).IsKept (.object attributes) := by
  obtain ⟨ws, hws⟩ : ∃ ws, Fields.Aligned (fun name t w => ∃ v, fields.lookup name = some v ∧
      v.convert t = .ok w ∧ v.Rearranged w) attributes ws :=
    Fields.exists_aligned_of_has hattributes hnames h
  have hextra : ∀ f ∈ fields, Fields.has attributes f.1 = true := by
    intro f hf
    rw [← hnames, Fields.has_iff]
    exact List.mem_map_of_mem hf
  have hconverted := hws.imp fun _ _ _ _ h => h.imp fun _ hv => And.intro hv.1 hv.2.1
  refine ⟨_, convert_object rfl hextra hconverted, .object ?_ fun name v w hv hw => ?_⟩
  · rw [← hws.names_eq]
    exact Fields.perm_names_of_has (distinct_of_isWellFormed hobject.wellFormed) hattributes hnames
  · obtain ⟨-, -, x, hx, -, hxw⟩ := hws.lookup hw
    obtain rfl := Option.some.inj (hv.symm.trans hx)
    exact hxw

end Containers

/-- **Conversion is the identity on what conforms.** A proper value that conforms to a type converts
to it, and the result is the value with the attributes of objects and of types in another order. -/
theorem exists_convert_rearranged {v : Value} {t : Ty} (hv : v.Proper)
    (ht : t.isWellFormed = true) (h : Conforms v t) :
    ∃ w, v.convert t = .ok w ∧ v.Rearranged w := by
  induction h with
  | dynamic v => exact ⟨v, rfl, .refl hv.wellFormed⟩
  | @null t u htu =>
    cases u with
    | dynamic => exact ⟨.null t, rfl, .refl hv.wellFormed⟩
    | _ => exact ⟨_, rfl, .null htu⟩
  | @unknown t u htu =>
    cases u with
    | dynamic => exact ⟨.unknown t, rfl, .refl hv.wellFormed⟩
    | _ => exact ⟨_, rfl, .unknown htu⟩
  | string s => exact ⟨_, rfl, .string s⟩
  | number x => exact ⟨_, rfl, .number x⟩
  | bool b => exact ⟨_, rfl, .bool b⟩
  | list htu _ ih => exact isKept_list htu fun v hmem => ih v hmem (hv.of_mem_parts hmem) ht
  | set htu _ ih => exact isKept_set hv htu fun v hmem => ih v hmem (hv.of_mem_parts hmem) ht
  | map htu _ ih =>
    exact isKept_map hv htu fun e he => ih e he (hv.of_mem_parts (List.mem_map_of_mem he)) ht
  | object hnames _ ih =>
    obtain ⟨hattributes, hall⟩ := Ty.isWellFormed_object_iff.mp ht
    refine isKept_object hv hattributes hnames fun name x want hx hwant => ?_
    exact ih name x want hx hwant (hv.of_mem_parts (List.mem_map_of_mem (Fields.mem_of_lookup hx)))
      (hall _ (Fields.mem_of_lookup hwant))

/-! ### A gauge -/

/-- What there is to know about a gauge: its readings in any unit, and limits. -/
def gauge : Ty :=
  .object [("limits", .object [("low", .number), ("high", .number)]),
    ("readings", .set (.object [("unit", .dynamic), ("value", .number)]))]

/-- A reading with its attributes in another order than declared. -/
def swappedReading (value : Double) : Value :=
  .object [("value", .number value), ("unit", .list .dynamic [.null .bool])]

/-- A gauge with nothing in the declared order. Two readings are not-a-number, and so they are not
equal; another one is infinite. -/
def swappedGauge : Value :=
  .object [
    ("readings", .set (.object [("value", .number), ("unit", .dynamic)])
      [swappedReading .nan, swappedReading (.infinity true), swappedReading .nan]),
    ("limits", .null (.object [("high", .number), ("low", .number)]))]

/-- A reading with its attributes as declared. -/
def sortedReading (value : Double) : Value :=
  .object [("unit", .list .dynamic [.null .bool]), ("value", .number value)]

/-- The gauge with everything in the declared order. -/
def sortedGauge : Value :=
  .object [
    ("limits", .null (.object [("low", .number), ("high", .number)])),
    ("readings", .set (.object [("unit", .dynamic), ("value", .number)])
      [sortedReading .nan, sortedReading (.infinity true), sortedReading .nan])]

theorem conforms_swappedReading (value : Double) :
    Conforms (swappedReading value) (.object [("unit", .dynamic), ("value", .number)]) := by
  refine conforms_object_of_perm (.swap "unit" "value" []) ?_
  refine List.forall_mem_cons.mpr ⟨fun v _ => .dynamic v, List.forall_mem_singleton.mpr ?_⟩
  intro v hv
  obtain rfl := Option.some.inj hv
  exact .number value

theorem conforms_swappedGauge : Conforms swappedGauge gauge := by
  refine conforms_object_of_perm (.swap "limits" "readings" []) ?_
  refine List.forall_mem_cons.mpr ⟨fun v hv => ?_, List.forall_mem_singleton.mpr fun v hv => ?_⟩
  · obtain rfl := Option.some.inj hv
    exact .null (by decide)
  · obtain rfl := Option.some.inj hv
    refine .set (by decide) (List.forall_mem_cons.mpr ⟨conforms_swappedReading _,
      List.forall_mem_cons.mpr ⟨conforms_swappedReading _,
        List.forall_mem_singleton.mpr (conforms_swappedReading _)⟩⟩)

/-- The gauge is put in order, and it keeps all three readings. -/
theorem exists_convert_rearranged_swappedGauge :
    swappedGauge.Proper ∧ gauge.isWellFormed = true ∧ Conforms swappedGauge gauge ∧
      swappedGauge.convert gauge = .ok sortedGauge ∧ swappedGauge.Rearranged sortedGauge := by
  have hproper : swappedGauge.Proper := ⟨by decide, by decide⟩
  have hsorted : swappedGauge.convert gauge = .ok sortedGauge := by rfl
  obtain ⟨w, hw, hrearranged⟩ :=
    exists_convert_rearranged hproper (by decide) conforms_swappedGauge
  obtain rfl := Except.ok.inj (hsorted.symm.trans hw)
  exact ⟨hproper, by decide, conforms_swappedGauge, hsorted, hrearranged⟩

end Value

end ProviderMock
