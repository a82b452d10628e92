import ProviderMock.Proofs.Conversion
import ProviderMock.Proofs.WellFormed

/-!
# Values of a type

When a value *conforms* to a type: its kind fits, the types that it carries are the same as the type
asks for, and so on for all its parts. Nulls and unknowns of the same type conform, and everything
conforms to the dynamic type.

* **objects** — `conforms_object_of_aligned`: fields under the names of their attributes make an
  object of the type.
* **conversion** — `Value.hasType_of_convert`: what converts to a type has it, to the order of
  attributes. So it conforms to it, `conforms_of_convert`.
-/

namespace ProviderMock

/-- A value has a type, all through. -/
inductive Conforms : Value → Ty → Prop where
  | dynamic (v : Value) : Conforms v .dynamic
  | null {t u : Ty} (h : t.same u = true) : Conforms (.null t) u
  | unknown {t u : Ty} (h : t.same u = true) : Conforms (.unknown t) u
  | string (s : String) : Conforms (.string s) .string
  | number (x : Double) : Conforms (.number x) .number
  | bool (b : Bool) : Conforms (.bool b) .bool
  | list {t u : Ty} {elements : List Value} (h : t.same u = true)
      (helements : ∀ e ∈ elements, Conforms e u) : Conforms (.list t elements) (.list u)
  | set {t u : Ty} {elements : List Value} (h : t.same u = true)
      (helements : ∀ e ∈ elements, Conforms e u) : Conforms (.set t elements) (.set u)
  | map {t u : Ty} {entries : List (String × Value)} (h : t.same u = true)
      (hentries : ∀ e ∈ entries, Conforms e.2 u) : Conforms (.map t entries) (.map u)
  /-- an object has exactly the names of its type -/
  | object {fields : List (String × Value)} {attributes : List (String × Ty)}
      (hnames : ∀ name, Fields.has fields name = Fields.has attributes name)
      (hfields : ∀ name v t, fields.lookup name = some v → attributes.lookup name = some t →
        Conforms v t) : Conforms (.object fields) (.object attributes)

open Fields (Aligned)

/-- Fields that are aligned with the attributes they conform to make an object that conforms. -/
theorem conforms_object_of_aligned {fields : List (String × Value)}
    {attributes : List (String × Ty)} (h : Aligned (fun _ t v => Conforms v t) attributes fields) :
    Conforms (.object fields) (.object attributes) := by
  refine .object (fun name => ?_) fun name v t hv ht => ?_
  · rw [Bool.eq_iff_iff, Fields.has_iff, Fields.has_iff, h.names_eq]
  · obtain ⟨u, hu, hvu⟩ := h.lookup hv
    rw [ht] at hu
    obtain rfl := Option.some.inj hu
    exact hvu

/-- Fields that have the names of the attributes, in whatever order, and conform to them make an
object that conforms. -/
theorem conforms_object_of_perm {fields : List (String × Value)}
    {attributes : List (String × Ty)}
    (hnames : (Fields.names fields).Perm (Fields.names attributes))
    (hfields : ∀ a ∈ attributes, ∀ v, fields.lookup a.1 = some v → Conforms v a.2) :
    Conforms (.object fields) (.object attributes) := by
  refine .object (fun name => ?_) fun name v t hv ht => ?_
  · rw [Bool.eq_iff_iff, Fields.has_iff, Fields.has_iff, hnames.mem_iff]
  · exact hfields (name, t) (Fields.mem_of_lookup ht) v hv

/-! ## Values with the very types of a type -/

namespace Value

/-- A value *has* a type if it conforms to it as it stands: nulls, unknowns and elements carry the
very types that the type asks for, and the fields of an object are its attributes in their order. -/
inductive HasType : Value → Ty → Prop where
  | dynamic (v : Value) : HasType v .dynamic
  | null (t : Ty) : HasType (.null t) t
  | unknown (t : Ty) : HasType (.unknown t) t
  | string (s : String) : HasType (.string s) .string
  | number (x : Double) : HasType (.number x) .number
  | bool (b : Bool) : HasType (.bool b) .bool
  | list {e : Ty} {elements : List Value} (h : ∀ x ∈ elements, HasType x e) :
      HasType (.list e elements) (.list e)
  | set {e : Ty} {elements : List Value} (h : ∀ x ∈ elements, HasType x e) :
      HasType (.set e elements) (.set e)
  | map {e : Ty} {entries : List (String × Value)} (h : ∀ x ∈ entries, HasType x.2 e) :
      HasType (.map e entries) (.map e)
  | object {attributes : List (String × Ty)} {fields : List (String × Value)}
      (hnames : Fields.names attributes = Fields.names fields)
      (h : List.Forall₂ (fun t v => HasType v t) (attributes.map Prod.snd)
        (fields.map Prod.snd)) : HasType (.object fields) (.object attributes)

namespace HasType

theorem object_of_aligned {attributes : List (String × Ty)} {fields : List (String × Value)}
    (h : Aligned (fun _ t v => v.HasType t) attributes fields) :
    (Value.object fields).HasType (.object attributes) :=
  .object (Fields.aligned_iff.mp h).1 (Fields.aligned_iff.mp h).2

/-- A value that has a type conforms to it. -/
theorem conforms {v : Value} {t : Ty} (h : v.HasType t) (ht : t.isWellFormed = true) :
    Conforms v t := by
  induction t using Ty.induction generalizing v with
  | dynamic => exact .dynamic v
  | string | number | bool =>
    cases h <;> first | exact .null rfl | exact .unknown rfl | constructor
  | list e ih =>
    cases h with
    | null => exact .null (Ty.same_self ht)
    | unknown => exact .unknown (Ty.same_self ht)
    | list h => exact .list (Ty.same_self ht) fun x hx => ih (h x hx) ht
  | set e ih =>
    cases h with
    | null => exact .null (Ty.same_self ht)
    | unknown => exact .unknown (Ty.same_self ht)
    | set h => exact .set (Ty.same_self ht) fun x hx => ih (h x hx) ht
  | map e ih =>
    cases h with
    | null => exact .null (Ty.same_self ht)
    | unknown => exact .unknown (Ty.same_self ht)
    | map h => exact .map (Ty.same_self ht) fun x hx => ih (h x hx) ht
  | object attributes ih =>
    cases h with
    | null => exact .null (Ty.same_self ht)
    | unknown => exact .unknown (Ty.same_self ht)
    | object hnames h =>
      refine conforms_object_of_aligned ((Fields.aligned_iff.mpr ⟨hnames, h⟩).imp
        fun name t v hmem hv => ?_)
      exact ih _ hmem hv ((Ty.isWellFormed_object_iff.mp ht).2 _ hmem)

end HasType

/-- What converts to a type has it. -/
theorem hasType_of_convert {t : Ty} {v w : Value} (h : v.convert t = .ok w) : w.HasType t := by
  apply convert_induction (P := fun t _ w => w.HasType t) h
  case dynamic => exact .dynamic
  case null => exact fun want _ => .null want
  case unknown => exact fun want _ => .unknown want
  case string =>
    intro v w hw
    obtain ⟨s, rfl⟩ := toStringValue_eq_ok hw
    exact .string s
  case number =>
    intro v w hw
    obtain ⟨x, rfl⟩ := toNumberValue_eq_ok hw
    exact .number x
  case bool =>
    intro v w hw
    obtain ⟨b, rfl⟩ := toBoolValue_eq_ok hw
    exact .bool b
  case list =>
    intro e v elements ws _ hws
    refine .list fun w hw => ?_
    obtain ⟨x, -, hx⟩ := exists_mem_left hws hw
    exact hx
  case set =>
    intro e v elements ws _ hws
    refine .set fun w hw => ?_
    obtain ⟨x, -, hx⟩ := exists_mem_left hws ((sublist_distinct ws).subset hw)
    exact hx
  case map =>
    intro e v entries ws _ hws
    refine .map fun w hw => ?_
    obtain ⟨x, -, hx⟩ := hws.exists_left (Entries.mem_of_mem_ofList hw)
    exact hx
  case object =>
    intro attributes v fields ws _ _ hws
    refine HasType.object_of_aligned (hws.imp fun name want w _ hw => ?_)
    obtain ⟨x, -, hx⟩ := hw
    exact hx

end Value

/-- What converts to a type conforms to it. -/
theorem conforms_of_convert {t : Ty} {v w : Value} (h : v.convert t = .ok w)
    (ht : t.isWellFormed = true) : Conforms w t :=
  (Value.hasType_of_convert h).conforms ht

end ProviderMock
