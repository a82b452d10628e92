import ProviderMock.Conversion
import ProviderMock.Proofs.Traversal

/-!
# Successful conversions

What it takes for a conversion to succeed, and what it results in. `Value.convert_induction` says it
once for all types: a relation between wanted types, values and results holds of every successful
conversion if it holds of the primitive ones and passes from parts to wholes.
-/

namespace ProviderMock

namespace Value

open Fields (Aligned)

/-! ## Parts -/

theorem convertElements_eq_mapM (f : Value → Except ConversionError Value) (start : Nat)
    (elements : List Value) :
    convertElements f start elements =
      (positions start elements).mapM fun part => (f part.2).mapError (·.within part.1) := by
  induction elements generalizing start with
  | nil => rfl
  | cons e rest ih => rw [convertElements, positions_cons, List.mapM_cons, ih]

/-- Elements convert if each of them does. -/
theorem convertElements_eq_ok_iff {f : Value → Except ConversionError Value} {start : Nat}
    {elements ws : List Value} :
    convertElements f start elements = .ok ws ↔
      List.Forall₂ (fun e w => f e = .ok w) elements ws := by
  rw [convertElements_eq_mapM, mapM_eq_ok_iff]
  simp only [mapError_eq_ok_iff]
  exact forall₂_positions_iff fun e w => f e = .ok w

theorem convertEntries_eq_mapM (f : Value → Except ConversionError Value)
    (entries : List (String × Value)) :
    convertEntries f entries = entries.mapM fun entry => do
      let w ← (f entry.2).mapError (·.within (.key entry.1))
      return (entry.1, w) := by
  induction entries with
  | nil => rfl
  | cons entry rest ih => simp only [convertEntries, List.mapM_cons, ih, bind_assoc, pure_bind]

/-- Entries convert if each of them does, and keep their keys. -/
theorem convertEntries_eq_ok_iff {f : Value → Except ConversionError Value}
    {entries ws : List (String × Value)} :
    convertEntries f entries = .ok ws ↔ Aligned (fun _ e w => f e = .ok w) entries ws := by
  rw [convertEntries_eq_mapM, mapM_named_eq_ok_iff]
  simp only [mapError_eq_ok_iff]

theorem requireField_eq_ok_iff {fields : List (String × Value)} {name : String} {v : Value} :
    requireField fields name = .ok v ↔ fields.lookup name = some v := by
  cases hlookup : fields.lookup name <;> simp [requireField, hlookup]

theorem convertFields_eq_mapM (attributes : List (String × Ty)) (fields : List (String × Value)) :
    convertFields attributes fields = attributes.mapM fun a => do
      let w ← (do
        let v ← requireField fields a.1
        (v.convert a.2).mapError (·.within (.attr a.1)))
      return (a.1, w) := by
  induction attributes with
  | nil => rfl
  | cons a rest ih => simp only [convertFields, List.mapM_cons, ih, bind_assoc, pure_bind]

/-- Fields convert if every attribute has one that converts to its type. -/
theorem convertFields_eq_ok_iff {attributes : List (String × Ty)}
    {fields ws : List (String × Value)} :
    convertFields attributes fields = .ok ws ↔
      Aligned (fun name want w => ∃ v, fields.lookup name = some v ∧ convert want v = .ok w)
        attributes ws := by
  rw [convertFields_eq_mapM, mapM_named_eq_ok_iff]
  simp only [bind_eq_ok_iff, requireField_eq_ok_iff, mapError_eq_ok_iff]

/-- Nothing is refused if every field has its attribute. -/
theorem has_of_refuseExtra {attributes : List (String × Ty)} {fields : List (String × Value)}
    (h : refuseExtra attributes fields = .ok ()) :
    ∀ f ∈ fields, Fields.has attributes f.1 = true := by
  unfold refuseExtra at h
  split at h
  · cases h
  · rename_i hnone
    intro f hf
    simpa using List.find?_eq_none.mp hnone f hf

/-- Nulls and unknowns take the wanted type; any other value is converted. -/
theorem retype_cases {P : Value → Value → Prop} {want : Ty}
    {f : Value → Except ConversionError Value} {v w : Value} (h : v.retype want f = .ok w)
    (null : ∀ t, P (.null t) (.null want)) (unknown : ∀ t, P (.unknown t) (.unknown want))
    (other : f v = .ok w → P v w) : P v w := by
  unfold retype at h
  split at h
  · obtain rfl := Except.ok.inj h
    exact null _
  · obtain rfl := Except.ok.inj h
    exact unknown _
  · exact other h

theorem elementsOr_eq_ok {cause : ConversionCause} {v : Value} {elements : List Value}
    (h : v.elementsOr cause = .ok elements) : v.elements? = some elements := by
  unfold elementsOr at h
  split at h
  · rename_i he
    rw [he, Except.ok.inj h]
  · cases h

theorem namedOr_eq_ok {cause : ConversionCause} {v : Value} {fields : List (String × Value)}
    (h : v.namedOr cause = .ok fields) : v.named? = some fields := by
  unfold namedOr at h
  split at h
  · rename_i hf
    rw [hf, Except.ok.inj h]
  · cases h

/-- What converts to a list is null or unknown, or has elements that convert. -/
theorem convert_list_cases {P : Value → Value → Prop} {e : Ty} {v w : Value}
    (h : v.convert (.list e) = .ok w) (null : ∀ t, P (.null t) (.null (.list e)))
    (unknown : ∀ t, P (.unknown t) (.unknown (.list e)))
    (list : ∀ elements ws, v.elements? = some elements →
      List.Forall₂ (fun x w => x.convert e = .ok w) elements ws → P v (.list e ws)) : P v w := by
  refine retype_cases h null unknown fun h => ?_
  obtain ⟨elements, hv, h⟩ := bind_eq_ok_iff.mp h
  obtain ⟨ws, hws, h⟩ := bind_eq_ok_iff.mp h
  obtain rfl := Except.ok.inj h
  exact list elements ws (elementsOr_eq_ok hv) (convertElements_eq_ok_iff.mp hws)

/-- What converts to a set is null or unknown, or has elements that convert. -/
theorem convert_set_cases {P : Value → Value → Prop} {e : Ty} {v w : Value}
    (h : v.convert (.set e) = .ok w) (null : ∀ t, P (.null t) (.null (.set e)))
    (unknown : ∀ t, P (.unknown t) (.unknown (.set e)))
    (set : ∀ elements ws, v.elements? = some elements →
      List.Forall₂ (fun x w => x.convert e = .ok w) elements ws → P v (setOf e ws)) : P v w := by
  refine retype_cases h null unknown fun h => ?_
  obtain ⟨elements, hv, h⟩ := bind_eq_ok_iff.mp h
  obtain ⟨ws, hws, h⟩ := bind_eq_ok_iff.mp h
  obtain rfl := Except.ok.inj h
  exact set elements ws (elementsOr_eq_ok hv) (convertElements_eq_ok_iff.mp hws)

/-- What converts to a map is null or unknown, or has entries or fields that convert. -/
theorem convert_map_cases {P : Value → Value → Prop} {e : Ty} {v w : Value}
    (h : v.convert (.map e) = .ok w) (null : ∀ t, P (.null t) (.null (.map e)))
    (unknown : ∀ t, P (.unknown t) (.unknown (.map e)))
    (map : ∀ entries ws, v.named? = some entries →
      Aligned (fun _ x w => x.convert e = .ok w) entries ws → P v (mapOf e ws)) : P v w := by
  refine retype_cases h null unknown fun h => ?_
  obtain ⟨entries, hv, h⟩ := bind_eq_ok_iff.mp h
  obtain ⟨ws, hws, h⟩ := bind_eq_ok_iff.mp h
  obtain rfl := Except.ok.inj h
  exact map entries ws (namedOr_eq_ok hv) (convertEntries_eq_ok_iff.mp hws)

/-- What converts to an object is null or unknown, or has entries or fields that are attributes, and
for every attribute one that converts to its type. -/
theorem convert_object_cases {P : Value → Value → Prop} {attributes : List (String × Ty)}
    {v w : Value} (h : v.convert (.object attributes) = .ok w)
    (null : ∀ t, P (.null t) (.null (.object attributes)))
    (unknown : ∀ t, P (.unknown t) (.unknown (.object attributes)))
    (object : ∀ fields ws, v.named? = some fields →
      (∀ f ∈ fields, Fields.has attributes f.1 = true) →
      Aligned (fun name want w => ∃ x, fields.lookup name = some x ∧ x.convert want = .ok w)
        attributes ws → P v (.object ws)) : P v w := by
  refine retype_cases h null unknown fun h => ?_
  obtain ⟨fields, hv, h⟩ := bind_eq_ok_iff.mp h
  obtain ⟨⟨⟩, hextra, h⟩ := bind_eq_ok_iff.mp h
  obtain ⟨ws, hws, h⟩ := bind_eq_ok_iff.mp h
  obtain rfl := Except.ok.inj h
  exact object fields ws (namedOr_eq_ok hv) (has_of_refuseExtra hextra)
    (convertFields_eq_ok_iff.mp hws)

/-- What has elements converts to a list if they do. -/
theorem convert_list {e : Ty} {v : Value} {elements ws : List Value}
    (h : v.elements? = some elements)
    (hws : List.Forall₂ (fun x w => x.convert e = .ok w) elements ws) :
    v.convert (.list e) = .ok (.list e ws) := by
  cases v with
  | list t es | set t es =>
    obtain rfl := Option.some.inj h
    exact bind_eq_ok_iff.mpr ⟨_, rfl, bind_eq_ok_iff.mpr
      ⟨ws, convertElements_eq_ok_iff.mpr hws, rfl⟩⟩
  | _ => cases h

/-- What has elements converts to a set if they do. -/
theorem convert_set {e : Ty} {v : Value} {elements ws : List Value}
    (h : v.elements? = some elements)
    (hws : List.Forall₂ (fun x w => x.convert e = .ok w) elements ws) :
    v.convert (.set e) = .ok (setOf e ws) := by
  cases v with
  | list t es | set t es =>
    obtain rfl := Option.some.inj h
    exact bind_eq_ok_iff.mpr ⟨_, rfl, bind_eq_ok_iff.mpr
      ⟨ws, convertElements_eq_ok_iff.mpr hws, rfl⟩⟩
  | _ => cases h

/-- What has entries or fields converts to a map if they do. -/
theorem convert_map {e : Ty} {v : Value} {entries ws : List (String × Value)}
    (h : v.named? = some entries) (hws : Aligned (fun _ x w => x.convert e = .ok w) entries ws) :
    v.convert (.map e) = .ok (mapOf e ws) := by
  cases v with
  | map t es | object es =>
    obtain rfl := Option.some.inj h
    exact bind_eq_ok_iff.mpr ⟨_, rfl, bind_eq_ok_iff.mpr
      ⟨ws, convertEntries_eq_ok_iff.mpr hws, rfl⟩⟩
  | _ => cases h

/-- What has entries or fields converts to an object if every one has its attribute, and every
attribute has one that converts to its type. -/
theorem convert_object {attributes : List (String × Ty)} {v : Value}
    {fields ws : List (String × Value)} (h : v.named? = some fields)
    (hextra : ∀ f ∈ fields, Fields.has attributes f.1 = true)
    (hws : Aligned (fun name want w => ∃ x, fields.lookup name = some x ∧ x.convert want = .ok w)
      attributes ws) :
    v.convert (.object attributes) = .ok (.object ws) := by
  have hrefuse : refuseExtra attributes fields = .ok () := by
    unfold refuseExtra
    split
    · rename_i field _ hfind
      have hnot := List.find?_some hfind
      rw [hextra _ (List.mem_of_find?_eq_some hfind)] at hnot
      cases hnot
    · rfl
  cases v with
  | map t es | object es =>
    obtain rfl := Option.some.inj h
    exact bind_eq_ok_iff.mpr ⟨_, rfl, bind_eq_ok_iff.mpr ⟨(), hrefuse, bind_eq_ok_iff.mpr
      ⟨ws, convertFields_eq_ok_iff.mpr hws, rfl⟩⟩⟩
  | _ => cases h

/-- What has elements converts to a list only if they convert. -/
theorem exists_of_convert_list {e : Ty} {v w : Value} {elements : List Value}
    (hv : v.elements? = some elements) (h : v.convert (.list e) = .ok w) :
    ∃ ws, List.Forall₂ (fun x w => x.convert e = .ok w) elements ws ∧ w = .list e ws := by
  revert hv
  apply convert_list_cases (P := fun v w => v.elements? = some elements →
    ∃ ws, List.Forall₂ (fun x w => x.convert e = .ok w) elements ws ∧ w = .list e ws) h
  case null => exact fun _ hv => nomatch hv
  case unknown => exact fun _ hv => nomatch hv
  case list =>
    intro others ws hothers hws hv
    obtain rfl := Option.some.inj (hothers.symm.trans hv)
    exact ⟨ws, hws, rfl⟩

/-- What has elements converts to a set only if they convert. -/
theorem exists_of_convert_set {e : Ty} {v w : Value} {elements : List Value}
    (hv : v.elements? = some elements) (h : v.convert (.set e) = .ok w) :
    ∃ ws, List.Forall₂ (fun x w => x.convert e = .ok w) elements ws ∧ w = setOf e ws := by
  revert hv
  apply convert_set_cases (P := fun v w => v.elements? = some elements →
    ∃ ws, List.Forall₂ (fun x w => x.convert e = .ok w) elements ws ∧ w = setOf e ws) h
  case null => exact fun _ hv => nomatch hv
  case unknown => exact fun _ hv => nomatch hv
  case set =>
    intro others ws hothers hws hv
    obtain rfl := Option.some.inj (hothers.symm.trans hv)
    exact ⟨ws, hws, rfl⟩

/-- What has entries or fields converts to a map only if they convert. -/
theorem exists_of_convert_map {e : Ty} {v w : Value} {entries : List (String × Value)}
    (hv : v.named? = some entries) (h : v.convert (.map e) = .ok w) :
    ∃ ws, Aligned (fun _ x w => x.convert e = .ok w) entries ws ∧ w = mapOf e ws := by
  revert hv
  apply convert_map_cases (P := fun v w => v.named? = some entries →
    ∃ ws, Aligned (fun _ x w => x.convert e = .ok w) entries ws ∧ w = mapOf e ws) h
  case null => exact fun _ hv => nomatch hv
  case unknown => exact fun _ hv => nomatch hv
  case map =>
    intro others ws hothers hws hv
    obtain rfl := Option.some.inj (hothers.symm.trans hv)
    exact ⟨ws, hws, rfl⟩

/-- What has entries or fields converts to an object only if every one has its attribute, and every
attribute has one that converts to its type. -/
theorem exists_of_convert_object {attributes : List (String × Ty)} {v w : Value}
    {fields : List (String × Value)} (hv : v.named? = some fields)
    (h : v.convert (.object attributes) = .ok w) :
    (∀ f ∈ fields, Fields.has attributes f.1 = true) ∧
      ∃ ws, Aligned (fun name want w => ∃ x, fields.lookup name = some x ∧ x.convert want = .ok w)
        attributes ws ∧ w = .object ws := by
  revert hv
  apply convert_object_cases (P := fun v w => v.named? = some fields →
    (∀ f ∈ fields, Fields.has attributes f.1 = true) ∧
      ∃ ws, Aligned (fun name want w => ∃ x, fields.lookup name = some x ∧ x.convert want = .ok w)
        attributes ws ∧ w = .object ws) h
  case null => exact fun _ hv => nomatch hv
  case unknown => exact fun _ hv => nomatch hv
  case object =>
    intro others ws hothers hextra hws hv
    obtain rfl := Option.some.inj (hothers.symm.trans hv)
    exact ⟨hextra, ws, hws, rfl⟩

/-! ## Primitives -/

theorem toStringValue_eq_ok {v w : Value} (h : v.toStringValue = .ok w) : ∃ s, w = .string s := by
  unfold toStringValue at h
  split at h <;> first | exact ⟨_, (Except.ok.inj h).symm⟩ | cases h

theorem toNumberValue_eq_ok {v w : Value} (h : v.toNumberValue = .ok w) : ∃ x, w = .number x := by
  unfold toNumberValue at h
  split at h
  · exact ⟨_, (Except.ok.inj h).symm⟩
  · split at h
    · split at h
      · exact ⟨_, (Except.ok.inj h).symm⟩
      · cases h
    · cases h
  · cases h

theorem toBoolValue_eq_ok {v w : Value} (h : v.toBoolValue = .ok w) : ∃ b, w = .bool b := by
  unfold toBoolValue at h
  split at h
  · exact ⟨_, (Except.ok.inj h).symm⟩
  · split at h
    · exact ⟨_, (Except.ok.inj h).symm⟩
    · split at h
      · exact ⟨_, (Except.ok.inj h).symm⟩
      · cases h
  · cases h

/-! ## Induction -/

/-- Induction on successful conversions: a relation of the wanted type, the value and the result
holds of all of them if it passes from elements, entries and fields to what holds them. -/
theorem convert_induction {P : Ty → Value → Value → Prop} {t : Ty} {v w : Value}
    (h : v.convert t = .ok w)
    (dynamic : ∀ v, P .dynamic v v)
    (null : ∀ want t, P want (.null t) (.null want))
    (unknown : ∀ want t, P want (.unknown t) (.unknown want))
    (string : ∀ v w, v.toStringValue = .ok w → P .string v w)
    (number : ∀ v w, v.toNumberValue = .ok w → P .number v w)
    (bool : ∀ v w, v.toBoolValue = .ok w → P .bool v w)
    (list : ∀ e v elements ws, v.elements? = some elements →
      List.Forall₂ (P e) elements ws → P (.list e) v (.list e ws))
    (set : ∀ e v elements ws, v.elements? = some elements →
      List.Forall₂ (P e) elements ws → P (.set e) v (setOf e ws))
    (map : ∀ e v entries ws, v.named? = some entries →
      Aligned (fun _ => P e) entries ws → P (.map e) v (mapOf e ws))
    (object : ∀ attributes v fields ws, v.named? = some fields →
      (∀ f ∈ fields, Fields.has attributes f.1 = true) →
      Aligned (fun name want w => ∃ x, fields.lookup name = some x ∧ P want x w) attributes ws →
      P (.object attributes) v (.object ws)) : P t v w := by
  induction t using Ty.induction generalizing v w with
  | dynamic =>
    obtain rfl := Except.ok.inj h
    exact dynamic v
  | string => exact retype_cases h (null _) (unknown _) (string v w)
  | number => exact retype_cases h (null _) (unknown _) (number v w)
  | bool => exact retype_cases h (null _) (unknown _) (bool v w)
  | list e ih =>
    refine convert_list_cases h (null _) (unknown _) fun elements ws hv hws => ?_
    exact list e v elements ws hv (hws.imp fun _ _ => ih)
  | set e ih =>
    refine convert_set_cases h (null _) (unknown _) fun elements ws hv hws => ?_
    exact set e v elements ws hv (hws.imp fun _ _ => ih)
  | map e ih =>
    refine convert_map_cases h (null _) (unknown _) fun entries ws hv hws => ?_
    exact map e v entries ws hv (hws.imp fun _ _ _ _ => ih)
  | object attributes ih =>
    refine convert_object_cases h (null _) (unknown _) fun fields ws hv hextra hws => ?_
    refine object attributes v fields ws hv hextra (hws.imp fun name want w hmem hw => ?_)
    obtain ⟨x, hx, hw⟩ := hw
    exact ⟨x, hx, ih _ hmem hw⟩

/-- Nulls and nothing else convert to nulls. -/
theorem isNull_of_convert {t : Ty} {v w : Value} (h : v.convert t = .ok w) :
    w.isNull = v.isNull := by
  -- of elements and names only containers have any, which are not null
  have helements : ∀ {v : Value} {elements : List Value}, v.elements? = some elements →
      v.isNull = false := by
    intro v elements hv
    cases v <;> first | rfl | cases hv
  have hnamed : ∀ {v : Value} {fields : List (String × Value)}, v.named? = some fields →
      v.isNull = false := by
    intro v fields hv
    cases v <;> first | rfl | cases hv
  apply convert_induction (P := fun _ v w => w.isNull = v.isNull) h
  case dynamic => exact fun _ => rfl
  case null => exact fun _ _ => rfl
  case unknown => exact fun _ _ => rfl
  case string =>
    intro v w hw
    obtain ⟨s, rfl⟩ := toStringValue_eq_ok hw
    cases v <;> first | rfl | cases hw
  case number =>
    intro v w hw
    obtain ⟨x, rfl⟩ := toNumberValue_eq_ok hw
    cases v <;> first | rfl | cases hw
  case bool =>
    intro v w hw
    obtain ⟨b, rfl⟩ := toBoolValue_eq_ok hw
    cases v <;> first | rfl | cases hw
  case list => exact fun _ _ _ _ hv _ => (helements hv).symm
  case set => exact fun _ _ _ _ hv _ => (helements hv).symm
  case map => exact fun _ _ _ _ hv _ => (hnamed hv).symm
  case object => exact fun _ _ _ _ hv _ _ => (hnamed hv).symm

end Value

end ProviderMock
