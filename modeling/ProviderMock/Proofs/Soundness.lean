import ProviderMock.Proofs.Completion
import ProviderMock.Proofs.Generation

/-!
# Synthesized values have the type of their schema

Whatever the replacement and the generator, a target that conforms to the type of a schema is
completed to a value that conforms to it; and so is a target that is no object at all, because all
of its fields are then nulls or unknowns of the declared types.

* **one leaf** — `Context.conforms_leaf`: a filled leaf conforms to its declared type.
* **the relation** — `Completes.conforms`: completion keeps conformance, by induction on the schema.
-/

namespace ProviderMock

open Fields (Aligned)

/-- A field of a target conforms to its declared type if the target conforms, and also if the target
is no object. -/
theorem conforms_fieldOr {target : Value} {attributes : List (String × Ty)}
    (h : (∀ fields, target ≠ .object fields) ∨ Conforms target (.object attributes))
    {name : String} {t : Ty} (hlookup : attributes.lookup name = some t)
    (ht : t.isWellFormed = true) : Conforms (target.fieldOr name t) t := by
  cases target with
  | object fields =>
    rcases h with h | h
    · exact absurd rfl (h fields)
    · rcases h with _ | _ | _ | _ | _ | _ | _ | _ | _ | ⟨hnames, hfields⟩
      -- the object has the name because its type has it
      have hhas : Fields.has fields name = true := by
        rw [hnames, Fields.has, hlookup]
        rfl
      obtain ⟨v, hv⟩ := Option.isSome_iff_exists.mp hhas
      simp only [Value.fieldOr, hv, Option.getD_some]
      exact hfields name v t hv hlookup
  | unknown u => exact .unknown (Ty.same_self ht)
  | _ => exact .null (Ty.same_self ht)

/-- The elements of a list or a set conform to the element type. -/
theorem Conforms.elements {target : Value} {u : Ty}
    (h : Conforms target (.list u) ∨ Conforms target (.set u)) {elements : List Value}
    (helements : target.elements? = some elements) : ∀ e ∈ elements, Conforms e u := by
  rcases h with h | h
  · cases h with
    | list _ hall =>
      obtain rfl := Option.some.inj helements
      exact hall
    | _ => cases helements
  · cases h with
    | set _ hall =>
      obtain rfl := Option.some.inj helements
      exact hall
    | _ => cases helements

/-- What conforms to a map type and has entries is a map, and its entries conform to the element
type. -/
theorem Conforms.entries {target : Value} {u : Ty} (h : Conforms target (.map u))
    {entries : List (String × Value)} (hentries : target.named? = some entries) :
    (∃ t, target = .map t entries) ∧ ∀ e ∈ entries, Conforms e.2 u := by
  cases h with
  | map _ hall =>
    obtain rfl := Option.some.inj hentries
    exact ⟨⟨_, rfl⟩, hall⟩
  | _ => cases hentries

/-- An empty collection conforms to the type of its kind. -/
theorem conforms_build_nil {collection : Collection} {t u : Ty} (h : t.same u = true) :
    Conforms (collection.build t []) (collection.type u) := by
  cases collection with
  | list => exact .list h fun _ he => absurd he List.not_mem_nil
  | set => exact .set h fun _ he => absurd he List.not_mem_nil
  | map => exact .map h fun _ he => absurd he List.not_mem_nil

namespace Synthesis

/-- What an unset leaf is filled with conforms to its declared type. -/
theorem Context.conforms_leaf (context : Context) {t : Ty} (ht : t.isWellFormed = true)
    {target : Value} (h : context.mode.isUnset target = true) (r : Option Value) (path : Path)
    (p : Progress) : Conforms (context.leaf t target r path p).1 t := by
  rcases context.leaf_cases h r path p with ⟨x, -, -, hx⟩ | ⟨-, hunknown⟩ | ⟨-, g, hg⟩
  · exact conforms_of_convert hx ht
  · rw [hunknown]
    exact .unknown (Ty.same_self ht)
  · rw [hg]
    exact conforms_generate ht g

/-- Leaves may be filled with what conforms to a well-formed declared type. -/
def Typed (t : Ty) (v : Value) : Prop := t.isWellFormed = true → Conforms v t

variable {mode : Mode}

/-- Completing along the parts of an object keeps conformance if completing along each part does. Of
two parts of one name the last one counts, for the type as for the value. -/
theorem CompletesObject.conforms_of_parts {parts : List (String × Part)}
    (hparts : ∀ p ∈ parts, p.2.WellFormed)
    (ih : ∀ p ∈ parts, ∀ target v, Completes mode Typed p.2 target v →
      Conforms target p.2.type → Conforms v p.2.type)
    {target v : Value} (h : CompletesObject mode Typed parts target v)
    (htarget : (∀ fields, target ≠ .object fields) ∨ Conforms target (Part.objectType parts)) :
    Conforms v (Part.objectType parts) := by
  obtain ⟨fields, hfields, rfl⟩ := h
  have htype : Part.objectType parts =
      .object (Fields.mapValues Part.type (Fields.ofList parts)) := by
    rw [Part.objectType, Ty.ofFields, Part.types_eq_mapValues, Fields.ofList_mapValues]
  have haligned := Fields.aligned_ofList (completesFields_iff.mp hfields)
  rw [htype] at htarget ⊢
  refine .object (fun name => ?_) fun name w t hw ht => ?_
  · rw [Bool.eq_iff_iff, Fields.has_iff, Fields.has_iff, Fields.names_mapValues, haligned.names_eq]
  · obtain ⟨part, hpart, hcompletes⟩ := haligned.lookup hw
    have hmem : (name, part) ∈ parts := Fields.mem_of_mem_ofList (Fields.mem_of_lookup hpart)
    have hlookup := Fields.lookup_mapValues Part.type (Fields.ofList parts) name
    rw [hpart, Option.map_some] at hlookup
    obtain rfl : part.type = t := Option.some.inj (hlookup.symm.trans ht)
    exact ih _ hmem _ _ hcompletes (conforms_fieldOr htarget hlookup (hparts _ hmem).type)

/-- **Completion keeps conformance.** -/
theorem Completes.conforms {part : Part} (hpart : part.WellFormed) {target v : Value}
    (h : Completes mode Typed part target v) (htarget : Conforms target part.type) :
    Conforms v part.type := by
  induction part using Part.induction generalizing target v with
  | leaf t computed =>
    rw [Completes] at h
    split at h
    · exact h hpart
    · rw [h]
      exact htarget
  | nested nesting parts ih =>
    have hparts := Part.allWellFormed_iff.mp hpart
    have hsame : (Part.objectType parts).same (Part.objectType parts) = true := by
      have htype : (Part.nested .single parts).WellFormed := hpart
      exact Ty.same_self htype.type
    have hobject : ∀ target v, CompletesObject mode Typed parts target v →
        Conforms target (Part.objectType parts) → Conforms v (Part.objectType parts) :=
      fun target v h htarget => h.conforms_of_parts hparts
        (fun p hp target v h htarget => ih p hp (hparts p hp) h htarget) (.inr htarget)
    cases nesting with
    | single => exact hobject target v h htarget
    | many collection =>
      cases hchildren : collection.children? target with
      | none =>
        rw [h.absent hchildren]
        split
        · exact conforms_build_nil hsame
        · exact htarget
      | some children =>
        cases collection with
        | list =>
          obtain ⟨elements, helements, -⟩ := Option.map_eq_some_iff.mp hchildren
          obtain ⟨vs, hvs, rfl⟩ := h.list helements
          refine .list hsame fun w hw => ?_
          obtain ⟨e, he, hew⟩ := exists_mem_left hvs hw
          exact hobject e w hew (Conforms.elements (.inl htarget) helements e he)
        | set =>
          obtain ⟨elements, helements, -⟩ := Option.map_eq_some_iff.mp hchildren
          obtain ⟨vs, hvs, rfl⟩ := h.set helements
          refine .set hsame fun w hw => ?_
          obtain ⟨e, he, hew⟩ := exists_mem_left hvs ((Value.sublist_distinct vs).subset hw)
          exact hobject e w hew (Conforms.elements (.inr htarget) helements e he)
        | map =>
          obtain ⟨entries, hentries, -⟩ := Option.map_eq_some_iff.mp hchildren
          obtain ⟨vs, hvs, rfl⟩ := h.map hentries
          refine .map hsame fun w hw => ?_
          obtain ⟨e, he, hew⟩ := hvs.exists_left (Entries.mem_of_mem_ofList hw)
          exact hobject e w.2 hew ((htarget.entries hentries).2 _ he)

/-- Completing along the parts of a block keeps conformance to its type. -/
theorem CompletesObject.conforms {schema : Block} (hschema : schema.isWellFormed = true)
    {target v : Value} (h : CompletesObject mode Typed schema.parts target v)
    (htarget : (∀ fields, target ≠ .object fields) ∨ Conforms target schema.impliedType) :
    Conforms v schema.impliedType := by
  have hparts := Part.allWellFormed_iff.mp (Block.wellFormed_parts schema hschema)
  rw [Block.impliedType_eq] at htarget ⊢
  exact h.conforms_of_parts hparts (fun p hp _ _ h htarget => h.conforms (hparts p hp) htarget)
    htarget

end Synthesis

open Synthesis

/-- **Type soundness of synthesis.** A target that conforms to the type of a schema, or is no object
at all, is completed to a value of that type: by a walk over the schema from wherever it starts, and
by the reading of a data source, the planning and the applying of a resource. Nothing is assumed of
the replacement. -/
theorem conforms_synthesized (schema : Block) (hschema : schema.isWellFormed = true)
    (target : Value)
    (htarget : (∀ fields, target ≠ .object fields) ∨ Conforms target schema.impliedType) :
    (∀ (context : Context) (r : Option Value) (path : Path) (p : Progress),
      Conforms (context.block schema target r path p).1 schema.impliedType) ∧
    ∀ (r : Replacement) (g : Generator),
      Conforms (readDataSource schema target r g).value schema.impliedType ∧
      Conforms (planResource schema target r g).value schema.impliedType ∧
      Conforms (applyResource schema target r g).value schema.impliedType := by
  have hblock : ∀ (context : Context) (r : Option Value) (path : Path) (p : Progress),
      Conforms (context.block schema target r path p).1 schema.impliedType := by
    intro context r path p
    -- nothing is asked of the replacement, so it hands down nothing
    have hcompletes : CompletesObject context.mode Typed schema.parts target
        (context.block schema target r path p).1 :=
      completes_block context (Q := fun _ => True) (fun _ _ _ _ _ => trivial)
        (fun t target r path p hunset _ ht => context.conforms_leaf ht hunset r path p)
        schema target (fun _ _ => trivial) path p
    exact hcompletes.conforms hschema htarget
  refine ⟨hblock, fun r g => ⟨?_, ?_, ?_⟩⟩
  · exact hblock ⟨.read, r.range⟩ r.usable.1 Path.root ⟨g, []⟩
  · exact hblock ⟨.plan, r.range⟩ r.usable.1 Path.root ⟨g, []⟩
  · exact hblock ⟨.apply, r.range⟩ r.usable.1 Path.root ⟨g, []⟩

/-! ### A server

A schema with a computed identifier, and with disks that take the place of an attribute of the same
name. -/

/-- The schema of a server. -/
def server : Block :=
  .mk [("id", .plain .string true), ("disk", .plain .number false)]
    [("disk", .many .list,
      .mk [("size", .plain .number false), ("serial", .plain .string true)] [])]

/-- A server without an identifier. Its first disk is null and its second one has no serial number;
the types that it carries have their attributes in another order than the schema. -/
def bareServer : Value :=
  .object [("id", .null .string),
    ("disk", .list (.object [("serial", .string), ("size", .number)])
      [.null (.object [("serial", .string), ("size", .number)]),
        .object [("size", .number (.zero true)), ("serial", .null .string)]])]

theorem conforms_bareServer : Conforms bareServer server.impliedType := by
  have hdisk : Conforms (.object [("size", .number (.zero true)), ("serial", .null .string)])
      (.object [("size", .number), ("serial", .string)]) :=
    conforms_object_of_aligned (.cons ⟨rfl, .number _⟩ (.cons ⟨rfl, .null rfl⟩ .nil))
  refine conforms_object_of_aligned (.cons ⟨rfl, .null rfl⟩ (.cons ⟨rfl, .list rfl ?_⟩ .nil))
  exact List.forall_mem_cons.mpr ⟨.null rfl, List.forall_mem_singleton.mpr hdisk⟩

/-- The server is planned to a value of its type with a replacement that fits nothing. -/
theorem conforms_synthesized_bareServer :
    server.isWellFormed = true ∧ Conforms bareServer server.impliedType ∧
      Conforms (planResource server bareServer ⟨some (.object [("disk", .bool true)]),
        SourceRange.unspecified⟩ (Generator.seeded 0)).value server.impliedType :=
  ⟨by decide, conforms_bareServer,
    ((conforms_synthesized server (by decide) bareServer (.inr conforms_bareServer)).2 _ _).2.1⟩

end ProviderMock
