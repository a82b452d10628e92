import ProviderMock.Proofs.DrawingOrder
import ProviderMock.Proofs.WrittenSchemas

/-!
# Schemas that are read back

A schema in writing keeps the order of its declarations, so a walk along the schema that is read
back comes to the same fields in the same order, and draws as many strings at each. It results in
the same unless strings are drawn for an object type whose attributes do not ascend.

* **walks in step** — `Walk.InStep`: two walks whose generators stay the same, with related results.
* **targets** — `Value.Twins` are what two such walks find.
* **fields** — `Context.inStep_field`, by induction on the field.
* **schemas** — `synthesize_ofText_text` puts it together for the text of a block.
-/

namespace ProviderMock

open Fields (Aligned)

/-! ## Walks in step -/

namespace Walk

variable {α β γ δ : Type}

/-- Two walks that move a generator alike, with related results. Unlike with `Mutes`, both may raise
what they like. -/
def InStep (R : α → β → Prop) (m : Walk α) (n : Walk β) : Prop :=
  ∀ p q : Progress, p.generator = q.generator →
    (m p).2.generator = (n q).2.generator ∧ R (m p).1 (n q).1

variable {R : α → β → Prop} {S : γ → δ → Prop} {m : Walk α} {n : Walk β}

theorem inStep_pure {a : α} {b : β} (h : R a b) : InStep R (pure a) (pure b) :=
  fun _ _ hgenerator => ⟨hgenerator, h⟩

theorem InStep.bind {f : α → Walk γ} {g : β → Walk δ} (h : InStep R m n)
    (hfg : ∀ a b, R a b → InStep S (f a) (g b)) : InStep S (m >>= f) (n >>= g) := by
  intro p q hgenerator
  obtain ⟨hafter, hR⟩ := h p q hgenerator
  exact hfg _ _ hR _ _ hafter

theorem InStep.imp {T : α → β → Prop} (h : InStep R m n) (hRT : ∀ a b, R a b → T a b) :
    InStep T m n :=
  fun p q hgenerator => (h p q hgenerator).imp_right (hRT _ _)

/-- Walks over the same values are in step if they are at each value. -/
theorem inStep_each {f : Value → Path → Walk α} {g : Value → Path → Walk β} {path : Path}
    {children : List (PathStep × Value)}
    (h : ∀ child ∈ children, InStep R (f child.2 (path.step child.1))
      (g child.2 (path.step child.1))) :
    InStep (List.Forall₂ fun a b => a.1 = b.1 ∧ R a.2 b.2) (each f path children)
      (each g path children) := by
  induction children with
  | nil => exact inStep_pure .nil
  | cons child rest ih =>
    obtain ⟨step, v⟩ := child
    rw [List.forall_mem_cons] at h
    exact h.1.bind fun a b hab => (ih h.2).bind fun as bs hrest =>
      inStep_pure (.cons ⟨rfl, hab⟩ hrest)

end Walk

open Walk (InStep)

/-! ## Targets -/

/-- Two targets that are one and the same, or nulls or unknowns of types that are. -/
inductive Value.Twins : Value → Value → Prop where
  | self {v : Value} (h : v.Regular) : Twins v v
  | null {t u : Ty} (ht : t.isWellFormed = true) (hu : u.isWellFormed = true)
      (h : t.same u = true) : Twins (.null t) (.null u)
  | unknown {t u : Ty} (ht : t.isWellFormed = true) (hu : u.isWellFormed = true)
      (h : t.same u = true) : Twins (.unknown t) (.unknown u)

namespace Value.Twins

variable {v w : Value}

theorem same (h : v.Twins w) : v.same w = true := by
  cases h with
  | self h => exact h.same_self
  | null _ _ h | unknown _ _ h => exact h

theorem proper (h : v.Twins w) : v.Proper ∧ w.Proper := by
  cases h with
  | self h => exact ⟨h.toProper, h.toProper⟩
  | null ht hu _ | unknown ht hu _ =>
    exact ⟨proper_iff.mpr ⟨ht, rfl⟩, proper_iff.mpr ⟨hu, rfl⟩⟩

/-- Twins have twins under every name. -/
theorem fieldOr (h : v.Twins w) (name : String) {t u : Ty} (ht : t.isWellFormed = true)
    (hu : u.isWellFormed = true) (htu : t.same u = true) :
    (v.fieldOr name t).Twins (w.fieldOr name u) := by
  cases h with
  | null _ _ _ => exact .null ht hu htu
  | unknown _ _ _ => exact .unknown ht hu htu
  | self h =>
    cases v with
    | object fields =>
      cases hlookup : fields.lookup name with
      | none =>
        simp only [Value.fieldOr, hlookup, Option.getD_none]
        exact .null ht hu htu
      | some x =>
        simp only [Value.fieldOr, hlookup, Option.getD_some]
        exact .self (h.of_field hlookup)
    | unknown _ => exact .unknown ht hu htu
    | _ => exact .null ht hu htu

/-- Twins have the same children. -/
theorem children?_eq (h : v.Twins w) (collection : Collection) :
    collection.children? v = collection.children? w := by
  cases h with
  | self _ => rfl
  | null _ _ _ | unknown _ _ _ => cases collection <;> rfl

/-- The children of twins are regular. -/
theorem regular_of_mem_children (h : v.Twins w) {collection : Collection}
    {children : List (PathStep × Value)} (hchildren : collection.children? v = some children)
    {child : PathStep × Value} (hchild : child ∈ children) : child.2.Regular := by
  cases h with
  | self h => exact h.of_mem_parts (Collection.mem_parts_of_mem_children hchildren hchild)
  | null _ _ _ | unknown _ _ _ => cases collection <;> cases hchildren

end Value.Twins

/-! ## Fields -/

namespace Part

mutual

/-- A field with the attributes of object types in ascending order. -/
def sorted : Part → Part
  | .leaf t computed => .leaf t.sorted computed
  | .nested nesting parts => .nested nesting (allSorted parts)
termination_by structural p => p

/-- Fields in their order, with the attributes of object types in ascending order. -/
def allSorted : List (String × Part) → List (String × Part)
  | [] => []
  | (name, part) :: rest => (name, part.sorted) :: allSorted rest
termination_by structural ps => ps

end

theorem allSorted_eq_mapValues (parts : List (String × Part)) :
    allSorted parts = Fields.mapValues sorted parts := by
  induction parts with
  | nil => rfl
  | cons part rest ih =>
    obtain ⟨name, part⟩ := part
    rw [allSorted, ih]
    rfl

/-- Declared types stay well-formed in ascending order. -/
theorem WellFormed.sorted {part : Part} (h : part.WellFormed) : part.sorted.WellFormed := by
  induction part using Part.induction with
  | leaf t computed => exact Ty.isWellFormed_sorted h
  | nested nesting parts ih =>
    rw [WellFormed, allWellFormed_iff] at h
    rw [Part.sorted, WellFormed, allWellFormed_iff, allSorted_eq_mapValues]
    exact List.forall_mem_map.mpr fun p hp => ih p hp (h p hp)

theorem wellFormed_allSorted {parts : List (String × Part)} (h : ∀ p ∈ parts, p.2.WellFormed) :
    ∀ p ∈ allSorted parts, p.2.WellFormed := by
  rw [allSorted_eq_mapValues]
  exact List.forall_mem_map.mpr fun p hp => (h p hp).sorted

end Part

mutual

/-- The field of an attribute that is read is the field of the attribute in ascending order. -/
theorem Attribute.part_sorted : ∀ a : Attribute, a.sorted.part = a.part.sorted
  | .plain _ _ => rfl
  | .nested _ _ nesting attributes => by
    rw [Attribute.sorted, Attribute.part, Attribute.parts_allSorted attributes, Attribute.part,
      Part.sorted]
termination_by structural a => a

/-- The fields of attributes that are read are the fields of the attributes in ascending order. -/
theorem Attribute.parts_allSorted : ∀ attributes : List (String × Attribute),
    Attribute.parts (Attribute.allSorted attributes) = Part.allSorted (Attribute.parts attributes)
  | [] => rfl
  | (name, a) :: rest => by
    rw [Attribute.allSorted, Attribute.parts, Attribute.part_sorted a,
      Attribute.parts_allSorted rest, Attribute.parts, Part.allSorted]
termination_by structural attributes => attributes

end

mutual

/-- The fields of a block that is read are the fields of the block in ascending order. -/
theorem Block.parts_sorted : ∀ b : Block, b.sorted.parts = Part.allSorted b.parts
  | .mk attributes blocks => by
    rw [Block.sorted, Block.parts, Attribute.parts_allSorted attributes,
      Block.nestedParts_allSorted blocks, Block.parts]
    simp [Part.allSorted_eq_mapValues, Fields.mapValues]
termination_by structural b => b

/-- The fields of nested blocks that are read are the fields of the blocks in ascending order. -/
theorem Block.nestedParts_allSorted : ∀ blocks : List (String × Nesting × Block),
    Block.nestedParts (Block.allSorted blocks) = Part.allSorted (Block.nestedParts blocks)
  | [] => rfl
  | (name, nesting, b) :: rest => by
    rw [Block.allSorted, Block.nestedParts, Block.parts_sorted b, Block.nestedParts_allSorted rest,
      Block.nestedParts, Part.allSorted, Part.sorted]
termination_by structural blocks => blocks

end

namespace Part

/-- Objects are of the same type in ascending order if their fields are. -/
theorem same_objectType_allSorted {parts : List (String × Part)}
    (h : ∀ p ∈ parts, p.2.type.same p.2.sorted.type = true) :
    (objectType parts).same (objectType (allSorted parts)) = true := by
  rw [allSorted_eq_mapValues]
  refine same_objectType ?_ fun name p q hp hq => ?_
  · rw [Fields.ofList_mapValues, Fields.names_mapValues]
  · rw [Fields.ofList_mapValues, Fields.lookup_mapValues, hp] at hq
    obtain rfl := Option.some.inj hq
    exact h _ (Fields.mem_of_mem_ofList (Fields.mem_of_lookup hp))

/-- A field is of the same type in ascending order. -/
theorem WellFormed.same_type_sorted {part : Part} (h : part.WellFormed) :
    part.type.same part.sorted.type = true := by
  induction part using Part.induction with
  | leaf t computed => exact Ty.same_sorted_right h
  | nested nesting parts ih =>
    have hobject := same_objectType_allSorted fun p hp => ih p hp (allWellFormed_iff.mp h p hp)
    rcases nesting with _ | (_ | _ | _) <;> exact hobject

end Part

/-! ## Walks along what is read -/

namespace Synthesis

namespace Context

variable {context : Context} {r : Option Value}

/-- Whether what is generated at a visit does not depend on the order of attributes. -/
def OrderlyAt (context : Context) (r : Option Value) (visit : Visit) : Prop :=
  context.generates r visit = true → visit.part.type.drawsAscending = true

instance (context : Context) (r : Option Value) (visit : Visit) :
    Decidable (context.OrderlyAt r visit) :=
  inferInstanceAs (Decidable (_ → _))

/-- A leaf in ascending order draws as many strings as the leaf. -/
theorem generator_leaf_sorted {t : Ty} (ht : t.isWellFormed = true) {v w : Value}
    (hvw : v.same w = true) (hr : ∀ x ∈ r, x.Regular) (path : Path) {p q : Progress}
    (hgenerator : p.generator = q.generator) :
    (context.leaf t v r path p).2.generator =
      (context.leaf t.sorted w r path q).2.generator := by
  have hunset' := context.mode.isUnset_of_same hvw
  have hfills' := Value.any_fills_of_same (Ty.same_sorted_right ht) ht (Ty.isWellFormed_sorted ht) hr
  cases hunset : context.mode.isUnset v with
  | false =>
    rw [leaf_of_set hunset, leaf_of_set (hunset' ▸ hunset)]
    exact hgenerator
  | true =>
    by_cases hquiet : context.mode = .plan ∨ r.any (·.fills t) = true
    · rw [generator_leaf hquiet, generator_leaf (hfills' ▸ hquiet)]
      exact hgenerator
    · obtain ⟨hmode, hfills⟩ := not_or.mp hquiet
      rw [Bool.not_eq_true] at hfills
      have hdrawn := strings_leaf hmode hunset hfills path p
      have hdrawn' := strings_leaf hmode (hunset' ▸ hunset) (hfills' ▸ hfills) path q
      rw [Ty.stringLeaves_sorted ht, ← hgenerator, ← hdrawn] at hdrawn'
      exact (congrArg Prod.snd hdrawn').symm

/-- Leaves are filled in step. -/
theorem inStep_leaf {t : Ty} (ht : t.isWellFormed = true) {v w : Value} (hvw : v.same w = true)
    (hr : ∀ x ∈ r, x.Regular) (path : Path) :
    InStep (fun a b => (context.mode ≠ .plan → context.mode.isUnset v = true →
        r.any (·.fills t) = false → t.drawsAscending = true) → a.same b = true)
      (context.leaf t v r path) (context.leaf t.sorted w r path) := by
  intro p q hgenerator
  refine ⟨generator_leaf_sorted ht hvw hr path hgenerator, fun hascending => ?_⟩
  refine same_leaf_of_generate (Ty.same_sorted_right ht) ht (Ty.isWellFormed_sorted ht) hvw hr path
    path p q fun hmode hunset hfills => ?_
  rw [← hgenerator]
  exact Generator.same_generate_sorted ht (hascending hmode hunset hfills) _

/-- What nested objects are given of a replacement is the same in both walks. -/
theorem inStep_nestedReplacement (held : Option Value) (path path' : Path) :
    InStep (fun a b => a = held.filter (fun x => !x.isNull && x.isObject) ∧ b = a)
      (context.nestedReplacement held path) (context.nestedReplacement held path') := by
  intro p q hgenerator
  simp only [generator_nestedReplacement, value_nestedReplacement]
  exact ⟨hgenerator, trivial, trivial⟩

/-- Walks over a field and over the field in ascending order are in step, and result in the same if
all visits are orderly. -/
def FieldInStep (context : Context) (r : Option Value) (part : Part) : Prop :=
  ∀ (v w : Value) (path : Path), v.Twins w →
    InStep (fun a b => (∀ visit ∈ part.visits v path, context.OrderlyAt r visit) → a.same b = true)
      (context.field part v (path.partOf r) path) (context.field part.sorted w (path.partOf r) path)

section

variable {parts : List (String × Part)} (hparts : ∀ p ∈ parts, p.2.WellFormed)
  (h : ∀ p ∈ parts, context.FieldInStep r p.2)

include hparts h

/-- Fields are completed in step if each of them is. -/
theorem inStep_fields {v w : Value} (hvw : v.Twins w) {path : Path} {held : Option Value}
    (hheld : ∀ name, held.bind (·.field? name) = (path.step (.attr name)).partOf r) :
    InStep (fun as bs => (∀ visit ∈ Part.visitsFields parts v path, context.OrderlyAt r visit) →
        Aligned (fun _ a b => a.same b = true) as bs)
      (context.fields parts v held path) (context.fields (Part.allSorted parts) w held path) := by
  induction parts with
  | nil => exact Walk.inStep_pure fun _ => .nil
  | cons part rest ih =>
    obtain ⟨name, part⟩ := part
    rw [List.forall_mem_cons] at hparts h
    have htwins := hvw.fieldOr name hparts.1.type hparts.1.sorted.type hparts.1.same_type_sorted
    rw [Part.allSorted, fields, fields, hheld]
    refine (h.1 _ _ _ htwins).bind fun a b hab => (ih hparts.2 h.2).bind fun as bs hrest => ?_
    refine Walk.inStep_pure fun hvisits => ?_
    rw [Part.visitsFields, List.forall_mem_append] at hvisits
    exact .cons ⟨rfl, hab hvisits.1⟩ (hrest hvisits.2)

/-- **Objects are completed in step** if their fields are. What is completed is proper. -/
theorem inStep_object {v w : Value} (hvw : v.Twins w) {path : Path} {held : Option Value}
    (hproper : ∀ x ∈ held, x.Proper)
    (hheld : ∀ name, held.bind (·.field? name) = (path.step (.attr name)).partOf r) :
    InStep (fun a b => a.Proper ∧ b.Proper ∧
        ((∀ visit ∈ Part.visitsFields parts v path, context.OrderlyAt r visit) → a.same b = true))
      (context.object parts v held path) (context.object (Part.allSorted parts) w held path) := by
  intro p q hgenerator
  obtain ⟨hafter, hresults⟩ := inStep_fields hparts h hvw hheld p q hgenerator
  refine ⟨hafter, proper_object hparts hvw.proper.1 hproper path p,
    proper_object (Part.wellFormed_allSorted hparts) hvw.proper.2 hproper path q, fun hvisits => ?_⟩
  have haligned := Fields.aligned_ofList (hresults hvisits)
  exact Value.same_object_iff.mpr ⟨_, rfl, haligned.length_eq, fun a ha =>
    haligned.exists_lookup (Fields.distinct_ofList _) ha⟩

/-- **Collections are completed in step** if the fields of their elements are. -/
theorem inStep_collection (collection : Collection) {children : List (PathStep × Value)}
    (hchildren : ∀ child ∈ children, child.2.Regular) {path : Path} {held : Option Value}
    (hproper : ∀ x ∈ held, x.Proper)
    (hheld : ∀ child ∈ children, ∀ name,
      held.bind (·.field? name) = ((path.step child.1).step (.attr name)).partOf r) :
    InStep (fun a b => (∀ child ∈ children, ∀ visit ∈ Part.visitsFields parts child.2
        (path.step child.1), context.OrderlyAt r visit) → a.same b = true)
      (do
        let results ← Walk.each (fun child path => context.object parts child held path) path
          children
        return collection.build (Part.objectType parts) results)
      (do
        let results ← Walk.each (fun child path => context.object (Part.allSorted parts) child held
          path) path children
        return collection.build (Part.objectType (Part.allSorted parts)) results) := by
  have htypes := Part.same_objectType_allSorted fun p hp => (hparts p hp).same_type_sorted
  refine (Walk.inStep_each (R := fun a b => a.Proper ∧ b.Proper ∧ ((∀ child ∈ children,
      ∀ visit ∈ Part.visitsFields parts child.2 (path.step child.1),
        context.OrderlyAt r visit) → a.same b = true)) fun child hchild => ?_).bind
    fun results more hresults => Walk.inStep_pure fun hvisits => ?_
  · refine (inStep_object hparts h (.self (hchildren child hchild)) hproper
      (hheld child hchild)).imp ?_
    rintro a b ⟨ha, hb, hab⟩
    exact ⟨ha, hb, fun hvisits => hab (hvisits child hchild)⟩
  · refine collection.same_build_of_forall₂ htypes
      (hresults.imp fun a b hab => ⟨hab.1, hab.2.2.2 hvisits⟩) (fun a ha => ?_) fun b hb => ?_
    · obtain ⟨b, -, -, ha, -⟩ := exists_mem_right hresults ha
      exact ha
    · obtain ⟨a, -, -, -, hb, -⟩ := exists_mem_left hresults hb
      exact hb

end

/-- **Every field is completed in step** with the field in ascending order. -/
theorem inStep_field (hr : ∀ x ∈ r, x.Regular) {part : Part} (hpart : part.WellFormed) :
    context.FieldInStep r part := by
  induction part using Part.induction with
  | leaf t computed =>
    intro v w path hvw
    cases computed with
    | false => exact Walk.inStep_pure fun _ => hvw.same
    | true =>
      refine (inStep_leaf hpart hvw.same (Path.regular_of_mem_partOf hr) path).imp fun a b hab hvisits => hab ?_
      intro hmode hunset hfills
      refine hvisits _ List.mem_cons_self ?_
      simp [generates, Visit.isUnset, Part.type, hmode, hunset, hfills]
  | nested nesting parts ih =>
    intro v w path hvw
    have hparts := Part.allWellFormed_iff.mp hpart
    have hfields := fun p hp => ih p hp (hparts p hp)
    -- all objects of the field are completed with what is of use of the replacement
    have hheld : ∀ object ∈ nesting.objects v path, ∀ name,
        ((path.partOf r).filter fun x => !x.isNull && x.isObject).bind (·.field? name) =
          (object.1.step (.attr name)).partOf r := by
      intro object hobject name
      rw [Value.bind_field?_filter, Path.partOf_attr, Path.partOf, Path.partOf,
        Nesting.attributeNames_objects nesting v path object hobject]
    have hproper : ∀ x ∈ (path.partOf r).filter fun x => !x.isNull && x.isObject, x.Proper :=
      fun x hx => (Path.regular_of_mem_partOf hr x (Option.mem_filter_iff.mp hx).1).toProper
    have hobjects : (∀ visit ∈ (Part.nested nesting parts).visits v path,
        context.OrderlyAt r visit) → ∀ object ∈ nesting.objects v path,
        ∀ visit ∈ Part.visitsFields parts object.2 object.1, context.OrderlyAt r visit :=
      fun h object hobject visit hvisit =>
        h visit (Part.mem_visits_nested.mpr (.inr ⟨object, hobject, hvisit⟩))
    rw [Part.sorted]
    cases nesting with
    | single =>
      have hself : (path, v) ∈ Nesting.single.objects v path := List.mem_cons_self
      rw [field_single, field_single]
      refine (inStep_nestedReplacement _ path path).bind ?_
      rintro _ _ ⟨rfl, rfl⟩
      refine (inStep_object hparts hfields hvw hproper (hheld _ hself)).imp ?_
      rintro a b ⟨-, -, hab⟩ hvisits
      exact hab (hobjects hvisits _ hself)
    | many collection =>
      cases hchildren : collection.children? v with
      | none =>
        have htypes := Part.same_objectType_allSorted fun p hp => (hparts p hp).same_type_sorted
        rw [context.field_of_absent parts _ path hchildren,
          context.field_of_absent (Part.allSorted parts) _ path (hvw.children?_eq _ ▸ hchildren)]
        refine (inStep_nestedReplacement _ path path).bind fun _ _ _ => Walk.inStep_pure fun _ => ?_
        exact same_absent (collection.same_build_nil htypes) hvw.same
      | some children =>
        rw [Nesting.objects, hchildren, Option.getD_some] at hheld hobjects
        rw [List.forall_mem_map] at hheld
        rw [context.field_of_children parts _ path hchildren,
          context.field_of_children (Part.allSorted parts) _ path (hvw.children?_eq _ ▸ hchildren)]
        refine (inStep_nestedReplacement _ path path).bind ?_
        rintro _ _ ⟨rfl, rfl⟩
        refine (inStep_collection hparts hfields collection
          (fun child => hvw.regular_of_mem_children hchildren) hproper hheld).imp
          fun a b hab hvisits => hab ?_
        exact List.forall_mem_map.mp (hobjects hvisits)

end Context

end Synthesis

open Synthesis

/-- **A schema that is read back serves as well as the schema.** The text of a well-formed block, if
it is not too deep, is read as a block along which a synthesis moves every generator as far as along
the block itself. Both result in the same for a plan, and in general if the attributes that strings
are drawn for ascend wherever an object is generated. -/
theorem synthesize_ofText_text {b : Block} (hb : b.isWellFormed = true)
    (hdepth : b.toJson.depth ≤ Document.maxDepth) (mode : Mode) {target : Value}
    (htarget : target.Regular) {r : Replacement} (hr : ∀ x ∈ r.value, x.Regular) (g : Generator) :
    ∃ b', Block.ofText b.toJson.text = .ok b' ∧
      let done := synthesize mode b target r g
      let done' := synthesize mode b' target r g
      done'.generator = done.generator ∧
        (mode = .plan → done'.value.same done.value = true) ∧
        ((∀ visit ∈ b.visits target, (⟨mode, r.range⟩ : Context).OrderlyAt r.value visit) →
          done'.value.same done.value = true) := by
  refine ⟨b.sorted, Block.ofText_text hb hdepth, ?_⟩
  intro done done'
  have hparts := Part.allWellFormed_iff.mp (Block.wellFormed_parts b hb)
  have hheld : ∀ name, r.usable.1.bind (·.field? name) =
      (Path.root.step (.attr name)).partOf r.value := by
    intro name
    rw [r.bind_field?_usable, Path.partOf_attr, Path.partOf_root]
  have hproper : ∀ x ∈ r.usable.1, x.Proper :=
    fun x hx => (hr x (Replacement.mem_of_mem_usable hx)).toProper
  have hfields : ∀ p ∈ b.parts, (⟨mode, r.range⟩ : Context).FieldInStep r.value p.2 :=
    fun p hp => Context.inStep_field hr (hparts p hp)
  have hobject := Context.inStep_object hparts hfields (.self htarget) hproper hheld
  rw [← Block.parts_sorted] at hobject
  obtain ⟨hgenerator, hfirst, hsecond, hsame⟩ := hobject ⟨g, []⟩ ⟨g, []⟩ rfl
  refine ⟨hgenerator.symm, fun hmode => ?_,
    fun hvisits => Value.same_symm hfirst hsecond (hsame hvisits)⟩
  refine Value.same_symm hfirst hsecond (hsame fun visit _ hgenerates => ?_)
  simp [Context.generates, hmode] at hgenerates

/-! ### Listeners and sockets -/

/-- A listener has an endpoint, whose host and scheme are strings, and certificates. -/
def listener : Block :=
  .mk [("endpoint", .plain (.object [("port", .number), ("host", .string), ("active", .bool),
      ("scheme", .string)]) true)]
    [("certificate", .many .set, .mk [("serial", .plain .string true)] [])]

/-- A listener that is not set up yet, with one certificate. -/
def newListener : Value :=
  .object [("certificate", .set (.object [("serial", .string)])
    [.object [("serial", .null .string)]])]

/-- To read a new listener along its schema or along what is read back comes to the same. -/
theorem synthesize_ofText_text_listener :
    listener.isWellFormed = true ∧ listener.toJson.depth ≤ Document.maxDepth ∧
      newListener.Regular ∧ (∀ x ∈ Replacement.absent.value, x.Regular) ∧
      (∀ visit ∈ listener.visits newListener,
        (⟨.read, Replacement.absent.range⟩ : Context).OrderlyAt Replacement.absent.value visit) ∧
      ∃ b, Block.ofText listener.toJson.text = .ok b ∧
        (readDataSource b newListener .absent (.seeded 0)).value.same
          (readDataSource listener newListener .absent (.seeded 0)).value = true := by
  have htarget : newListener.Regular := ⟨⟨by decide, by decide⟩, by decide⟩
  have hvisits : ∀ visit ∈ listener.visits newListener,
      (⟨.read, Replacement.absent.range⟩ : Context).OrderlyAt Replacement.absent.value visit := by
    decide
  obtain ⟨b, hb, -, -, hsame⟩ := synthesize_ofText_text (b := listener) (by decide) (by decide)
    .read htarget (r := .absent) nofun (.seeded 0)
  exact ⟨by decide, by decide, htarget, nofun, hvisits, b, hb, hsame hvisits⟩

/-- A socket has an endpoint whose attributes are strings and do not ascend. -/
def socket : Block :=
  .mk [("endpoint", .plain (.object [("port", .string), ("host", .string)]) true)] []

/-- A socket that is not set up yet. -/
def newSocket : Value := .object []

/-- The strings of an endpoint change places when its schema is read back, so what is read along
both is the same only if the generator makes one string twice. -/
theorem same_socket_iff (g : Generator) :
    (readDataSource socket.sorted newSocket .absent g).value.same
        (readDataSource socket newSocket .absent g).value = true ↔
      g.randomString.1 = g.randomString.2.randomString.1 := by
  have hread : (readDataSource socket.sorted newSocket .absent g).value =
      .object [("endpoint", .object [("host", .string g.randomString.1),
        ("port", .string g.randomString.2.randomString.1)])] := rfl
  have hdirect : (readDataSource socket newSocket .absent g).value =
      .object [("endpoint", .object [("port", .string g.randomString.1),
        ("host", .string g.randomString.2.randomString.1)])] := rfl
  rw [hread, hdirect]
  simpa [Value.same_object_iff, Value.same_string_iff, Fields.lookup_cons] using Eq.symm

/-- A socket that is read along what is read back of its schema is not the same as along the schema
itself, though the generators are: their strings have one character and come from the same seed. -/
theorem not_same_ofText_text :
    socket.isWellFormed = true ∧ socket.toJson.depth ≤ Document.maxDepth ∧ newSocket.Regular ∧
      Block.ofText socket.toJson.text = .ok socket.sorted ∧
      let g := Generator.ofSettings (StreamKey.ofSeed 0) ⟨some 0, 1⟩
      (readDataSource socket.sorted newSocket .absent g).value.same
        (readDataSource socket newSocket .absent g).value = false := by
  refine ⟨by decide, by decide, ⟨⟨by decide, by decide⟩, by decide⟩,
    Block.ofText_text (by decide) (by decide), ?_⟩
  rw [Bool.eq_false_iff, ne_eq, same_socket_iff]
  decide +kernel

end ProviderMock
