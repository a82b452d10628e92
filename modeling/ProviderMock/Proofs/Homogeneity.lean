import ProviderMock.Proofs.Apartness
import ProviderMock.Proofs.Reinference

/-!
# Homogeneous lists

Reading without a type takes the type of a list from its first element that is not null, and
converts the elements to it before the list itself may be converted with the list around it. However
often that is, in the end the elements of every list have the type of the elements of that list.

* **fixed points** — `Value.HasType.convert_eq`: conversion to a type leaves a proper value that has
  the type as it is.
* **depth** — `Value.IsIn` is everything in a value, and `Value.Homogeneous` says of all of it that
  there are neither sets nor maps and that elements have the type of the elements of their list.
* **rows of types** — `Json.Settled.homogeneous_under`: what is read stands under a row of types that
  it has, and the last of them is the type of the list.
* **reading** — `Value.homogeneous_infer`.
-/

namespace ProviderMock

open Fields (Aligned)

namespace Value

/-! ## Fixed points of conversion -/

/-- A proper set keeps all its elements when they are collected again. -/
theorem Proper.setOf_eq {t : Ty} {elements : List Value} (h : (Value.set t elements).Proper) :
    Value.setOf t elements = .set t elements :=
  congrArg (Value.set t) (distinct_eq_self h.pairwise)

/-- A proper map keeps its entries in their order when they are collected again. -/
theorem Proper.mapOf_eq {t : Ty} {entries : List (String × Value)}
    (h : (Value.map t entries).Proper) : Value.mapOf t entries = .map t entries :=
  congrArg (Value.map t) (Entries.ofList_eq_self (ascending_of_isWellFormed h.wellFormed))

/-- Conversion takes a proper value of a type to itself. -/
theorem HasType.convert_eq {v : Value} {t : Ty} (h : v.HasType t) (hv : v.Proper) :
    v.convert t = .ok v := by
  induction t using Ty.induction generalizing v with
  | dynamic => rfl
  | string | number | bool => cases h <;> rfl
  | list e ih =>
    cases h with
    | null | unknown => rfl
    | list h =>
      exact convert_list rfl (List.forall₂_same.mpr fun x hx => ih (h x hx) (hv.of_mem_parts hx))
  | set e ih =>
    cases h with
    | null | unknown => rfl
    | set h =>
      refine (convert_set rfl (List.forall₂_same.mpr fun x hx => ?_)).trans
        (congrArg Except.ok hv.setOf_eq)
      exact ih (h x hx) (hv.of_mem_parts hx)
  | map e ih =>
    cases h with
    | null | unknown => rfl
    | map h =>
      refine (convert_map rfl (List.forall₂_same.mpr fun x hx => ⟨rfl, ?_⟩)).trans
        (congrArg Except.ok hv.mapOf_eq)
      exact ih (h x hx) (hv.of_mem_parts (List.mem_map_of_mem hx))
  | object attributes ih =>
    cases h with
    | null | unknown => rfl
    | @object _ fields hnames h =>
      have hfields : Fields.Distinct fields := distinct_of_isWellFormed hv.wellFormed
      have hattributes : Fields.Distinct attributes := by
        rw [Fields.Distinct, hnames]
        exact hfields
      have htypes := Fields.aligned_iff.mpr ⟨hnames, h⟩
      refine convert_object rfl (fun f hf => ?_)
        (Fields.aligned_of_lookup hattributes hnames fun name t w ht hw => ⟨w, hw, ?_⟩)
      · rw [Fields.has_iff, hnames]
        exact List.mem_map_of_mem hf
      · obtain ⟨u, hu, hwu⟩ := htypes.lookup hw
        obtain rfl := Option.some.inj (ht.symm.trans hu)
        exact ih _ (Fields.mem_of_lookup ht) hwu
          (hv.of_mem_parts (List.mem_map_of_mem (Fields.mem_of_lookup hw)))

/-! ## At any depth -/

/-- A value is in another one if it is that value, or is in a part of it. -/
def IsIn (w v : Value) : Prop := Relation.ReflTransGen (fun v w => w ∈ v.parts) v w

/-- A value is homogeneous if there are only nulls, primitives, objects and lists in it, and the
elements of each list have the type of its elements. -/
inductive Homogeneous : Value → Prop where
  | null (t : Ty) : Homogeneous (.null t)
  | string (s : String) : Homogeneous (.string s)
  | number (x : Double) : Homogeneous (.number x)
  | bool (b : Bool) : Homogeneous (.bool b)
  | list {t : Ty} {elements : List Value} (htype : ∀ e ∈ elements, e.HasType t)
      (h : ∀ e ∈ elements, Homogeneous e) : Homogeneous (.list t elements)
  | object {fields : List (String × Value)} (h : ∀ f ∈ fields, Homogeneous f.2) :
      Homogeneous (.object fields)

namespace Homogeneous

variable {v w : Value}

theorem of_mem_parts (hv : v.Homogeneous) (hw : w ∈ v.parts) : w.Homogeneous := by
  cases hv with
  | list _ h => exact h w hw
  | object h =>
    obtain ⟨f, hf, rfl⟩ := List.mem_map.mp hw
    exact h f hf
  | _ => cases hw

/-- What is in a homogeneous value is homogeneous. -/
theorem of_isIn (hv : v.Homogeneous) (h : w.IsIn v) : w.Homogeneous := by
  induction h with
  | refl => exact hv
  | tail _ hpart ih => exact ih.of_mem_parts hpart

/-- A homogeneous value has its own type. -/
theorem hasType_ty (hv : v.Homogeneous) : v.HasType v.ty := by
  induction hv with
  | null t => exact .null t
  | string s => exact .string s
  | number x => exact .number x
  | bool b => exact .bool b
  | list htype _ _ => exact .list htype
  | @object fields _ ih =>
    rw [ty, fieldTypes_eq_mapValues]
    have hself : Aligned (fun _ v t => t = ty v) fields (Fields.mapValues ty fields) :=
      Fields.aligned_mapValues ty fields
    refine HasType.object_of_aligned (List.Forall₂.flip
      (forall₂_imp_of_mem hself fun f hf t _ ht => ⟨ht.1.symm, ?_⟩))
    rw [ht.2]
    exact ih f hf

end Homogeneous

end Value

/-! ## Under types -/

namespace Json

/-- The value of a tree has the last type of its row, if the tree has it. -/
theorem hasType_under_concat {json : Json} {t : Ty} (h : json.HasType t) (hdata : json.isData = true)
    (types : List Ty) : (json.under (types ++ [t])).HasType t :=
  Value.hasType_of_convert (convert_under h hdata types)

/-- The value of a settled tree is homogeneous under types that the tree has. -/
theorem Settled.homogeneous_under {json : Json} (h : json.Settled) {types : List Ty}
    (htypes : ∀ t ∈ types, json.HasType t) : (json.under types).Homogeneous := by
  induction h generalizing types with
  | null => exact .null _
  | bool b => exact .bool b
  | double x finite => exact .number x
  | string s => exact .string s
  | @array items hitems htype ih =>
    -- the row of the items is the type of the array and the types of the row it stands under
    have hrow : ∀ item ∈ items, ∀ t ∈ itemType items :: Ty.elementTypes types,
        item.HasType t := by
      intro item hitem t ht
      rcases List.mem_cons.mp ht with rfl | ht
      · exact htype item hitem
      · obtain ⟨u, hu, hut⟩ := List.mem_filterMap.mp ht
        cases htypes u hu with
        | array h =>
          obtain rfl := Option.some.inj hut
          exact h item hitem
        | dynamic => cases hut
    obtain ⟨init, hinit⟩ : ∃ init, itemType items :: Ty.elementTypes types =
        init ++ [(Ty.elementTypes types).getLastD (itemType items)] := by
      rcases List.eq_nil_or_concat (Ty.elementTypes types) with hnil | ⟨front, e, hconcat⟩
      · exact ⟨[], by rw [hnil]; rfl⟩
      · exact ⟨itemType items :: front, by simp [hconcat]⟩
    rw [under, itemsUnder_eq_map]
    refine .list (List.forall_mem_map.mpr fun item hitem => ?_)
      (List.forall_mem_map.mpr fun item hitem => ih item hitem (hrow item hitem))
    have hlast := hrow item hitem _ (hinit ▸ List.mem_concat_self)
    rw [hinit]
    exact hasType_under_concat hlast (hitems item hitem).isData init
  | @object members hascending _ ih =>
    rw [under]
    refine .object fun f hf => ?_
    obtain ⟨item, hitem, hf⟩ := (aligned_membersUnder members types).exists_left hf
    rw [hf]
    refine ih _ hitem fun t ht => ?_
    obtain ⟨u, hu, hut⟩ := List.mem_filterMap.mp ht
    cases htypes u hu with
    | object _ h => exact h f.1 t item hut (Fields.lookup_of_mem hascending.distinct hitem)
    | dynamic => cases hut

end Json

namespace Value

/-! ## Reading -/

/-- **What is read without a type is homogeneous and has its own type.** It is known and without
sets, maps and numbers that are not finite. The elements of every list in it have the type of its
elements, and conversion to its own type leaves it as it is. -/
theorem homogeneous_infer {json : Json} (hdata : json.isData = true) {v : Value}
    (h : infer json = .ok v) :
    v.isWhollyKnown = true ∧ v.hasFiniteNumbers = true ∧
      (∀ t elements, ¬ (Value.set t elements).IsIn v) ∧
      (∀ t entries, ¬ (Value.map t entries).IsIn v) ∧
      (∀ t elements, (Value.list t elements).IsIn v → ∀ e ∈ elements, e.HasType t) ∧
      v.convert v.ty = .ok v := by
  have hv : v.Homogeneous := by
    obtain ⟨other, hother, rfl⟩ := exists_settled_of_infer h hdata
    exact hother.homogeneous_under fun _ ht => absurd ht List.not_mem_nil
  refine ⟨?known, (robust_isFinite.infer h hdata).2, ?sets, ?maps, ?lists,
    hv.hasType_ty.convert_eq (proper_of_infer hdata h)⟩
  case known =>
    rw [← everywhere_not_isUnknown]
    exact (robust_not_isUnknown.infer h hdata).2
  case sets =>
    intro t elements hin
    cases hv.of_isIn hin
  case maps =>
    intro t entries hin
    cases hv.of_isIn hin
  case lists =>
    intro t elements hin
    cases hv.of_isIn hin with
    | list htype _ => exact htype

/-! ### A board -/

/-- A board with rows of different types, of which the first is empty. -/
def boardJson : Json :=
  .object [
    ("rows", .array [.array [], .null, .array [.null, .bool true],
      .array [.object [("pin", .number (.int 5 (by decide)))], .object [("pin", .string "6")]]]),
    ("title", .null)]

/-- The pins of a row are converted to the type of the first, and then taken over as they are. -/
example : infer boardJson = .ok (.object [
    ("rows", .list (.list .dynamic) [.list .dynamic [], .null (.list .dynamic),
      .list .dynamic [.null .bool, .bool true],
      .list .dynamic [.object [("pin", .number ⟨0x4014000000000000⟩)],
        .object [("pin", .number ⟨0x4018000000000000⟩)]]]),
    ("title", .null .dynamic)]) := by rfl

/-- The board is read, and converts to its own type as it is. -/
theorem homogeneous_infer_board :
    boardJson.isData = true ∧ ∃ v, infer boardJson = .ok v ∧ v.isWhollyKnown = true ∧
      v.hasFiniteNumbers = true ∧
      (∀ t elements, (Value.list t elements).IsIn v → ∀ e ∈ elements, e.HasType t) ∧
      v.convert (.object [("rows", .list (.list .dynamic)), ("title", .dynamic)]) = .ok v := by
  have hdata : boardJson.isData = true := by decide
  obtain ⟨v, hv, hty⟩ : ∃ v, infer boardJson = .ok v ∧
      v.ty = .object [("rows", .list (.list .dynamic)), ("title", .dynamic)] := ⟨_, rfl, rfl⟩
  obtain ⟨hknown, hfinite, -, -, hlists, hfixed⟩ := homogeneous_infer hdata hv
  exact ⟨hdata, v, hv, hknown, hfinite, hlists, hty ▸ hfixed⟩

end Value

end ProviderMock
