import ProviderMock.Proofs.Homogeneity
import ProviderMock.Proofs.Places

/-!
# Generated values and their types

A generated value is as much as its type says, and no more: it carries the type with its attributes
in their order, conversion to the type has nothing to change, and there is nothing in its
collections.

* **types** — `Value.ty_generate`, `Value.hasType_generate` and `Value.convert_generate`.
* **places** — `Value.exists_at_generate`: chains of attributes lead to generated values again, and
  `Value.of_at_generate`: nothing else leads anywhere.
* **all of it** — `Value.generate_fits` puts them together.
-/

namespace ProviderMock

open Fields (Aligned)

/-- What a chain of attributes leads to, from object type to object type. -/
def Ty.follow? : Ty → List String → Option Ty
  | t, [] => some t
  | t, name :: names => (t.attribute? name).bind (·.follow? names)
termination_by structural _ names => names

namespace Value

/-! ## Types -/

/-- A generated value has the type it was asked for. -/
theorem ty_generate (t : Ty) (g : Generator) : (g.generate t).1.ty = t := by
  induction t using Ty.induction generalizing g with
  | object attributes ih =>
    have htypes : Fields.mapValues id attributes =
        Fields.mapValues ty (Generator.generateFields attributes g).1 := by
      refine Aligned.mapValues_eq ((Generator.aligned_generateFields attributes g).imp
        fun name t v hmem hv => ?_)
      obtain ⟨g', rfl⟩ := hv
      exact (ih _ hmem g').symm
    have hself : Fields.mapValues id attributes = attributes := List.map_id attributes
    show Ty.object (fieldTypes (Generator.generateFields attributes g).1) = Ty.object attributes
    rw [fieldTypes_eq_mapValues, ← htypes, hself]
  | _ => rfl

/-- Types are the very ones that were asked for all through a generated value. -/
theorem hasType_generate (t : Ty) (g : Generator) : (g.generate t).1.HasType t := by
  induction t using Ty.induction generalizing g with
  | string => exact .string _
  | number => exact .number _
  | bool => exact .bool _
  | dynamic => exact .dynamic _
  | list e _ => exact .list fun _ hx => absurd hx List.not_mem_nil
  | set e _ => exact .set fun _ hx => absurd hx List.not_mem_nil
  | map e _ => exact .map fun _ hx => absurd hx List.not_mem_nil
  | object attributes ih =>
    refine HasType.object_of_aligned
      ((Generator.aligned_generateFields attributes g).imp fun name t v hmem hv => ?_)
    obtain ⟨g', rfl⟩ := hv
    exact ih _ hmem g'

/-- Conversion of a generated value to its type has nothing to do. -/
theorem convert_generate {t : Ty} (ht : t.isWellFormed = true) (g : Generator) :
    (g.generate t).1.convert t = .ok (g.generate t).1 :=
  (hasType_generate t g).convert_eq (proper_generate ht g)

/-! ## Places -/

/-- A step into a generated value takes an attribute of its type, to a generated value. -/
theorem of_child_generate {t : Ty} {g : Generator} {step : PathStep} {v : Value}
    (h : (g.generate t).1.child? step = some v) :
    ∃ name u, ∃ g' : Generator,
      step = .attr name ∧ t.attribute? name = some u ∧ v = (g'.generate u).1 := by
  cases step with
  | attr name =>
    cases t with
    | object attributes =>
      obtain ⟨u, hu, g', hv⟩ := (Generator.aligned_generateFields attributes g).lookup h
      exact ⟨name, u, g', rfl, hu, hv⟩
    | _ => cases h
  | index i => cases t <;> cases h
  | key k => cases t <;> cases h

/-- Under each attribute there is a generated value. -/
theorem exists_child_generate {t u : Ty} {name : String} (h : t.attribute? name = some u)
    (g : Generator) :
    ∃ g' : Generator, (g.generate t).1.child? (.attr name) = some (g'.generate u).1 := by
  cases t with
  | object attributes =>
    have hmade := Generator.aligned_generateFields attributes g
    obtain ⟨v, hv⟩ := Fields.mem_names_iff.mp
      (hmade.names_eq ▸ Fields.mem_names_iff.mpr ⟨u, h⟩)
    obtain ⟨u', hu', g', rfl⟩ := hmade.lookup hv
    obtain rfl := Option.some.inj (h.symm.trans hu')
    exact ⟨g', hv⟩
  | _ => cases h

/-- Chains of attributes are all that leads anywhere in a generated value. -/
theorem of_at_generate {t : Ty} {g : Generator} {path : Path} {v : Value}
    (h : (g.generate t).1.at? path = some v) :
    ∃ names u, ∃ g' : Generator,
      path = names.map .attr ∧ t.follow? names = some u ∧ v = (g'.generate u).1 := by
  induction path generalizing t g with
  | nil => exact ⟨[], t, g, rfl, rfl, (Option.some.inj h).symm⟩
  | cons step rest ih =>
    obtain ⟨child, hchild, hrest⟩ := Option.bind_eq_some_iff.mp h
    obtain ⟨name, u, g', rfl, hu, rfl⟩ := of_child_generate hchild
    obtain ⟨names, w, g'', rfl, hw, rfl⟩ := ih hrest
    exact ⟨name :: names, w, g'', rfl, Option.bind_eq_some_iff.mpr ⟨u, hu, hw⟩, rfl⟩

/-- Every chain of attributes leads to a generated value. -/
theorem exists_at_generate {t u : Ty} {names : List String} (h : t.follow? names = some u)
    (g : Generator) :
    ∃ g' : Generator, (g.generate t).1.at? (names.map .attr) = some (g'.generate u).1 := by
  induction names generalizing t g with
  | nil =>
    obtain rfl := Option.some.inj h
    exact ⟨g, rfl⟩
  | cons name rest ih =>
    obtain ⟨s, hs, hrest⟩ := Option.bind_eq_some_iff.mp h
    obtain ⟨g', hchild⟩ := exists_child_generate hs g
    obtain ⟨g'', hat⟩ := ih hrest g'
    exact ⟨g'', Option.bind_eq_some_iff.mpr ⟨_, hchild, hat⟩⟩

/-- The nulls of a generated value are where chains of attributes lead to the dynamic type. -/
theorem at_generate_eq_null_iff {t u : Ty} {g : Generator} {path : Path} :
    (g.generate t).1.at? path = some (.null u) ↔
      u = .dynamic ∧ ∃ names, path = names.map .attr ∧ t.follow? names = some .dynamic := by
  constructor
  · intro h
    obtain ⟨names, s, g', rfl, hs, hv⟩ := of_at_generate h
    obtain rfl : s = .dynamic := Generator.isNull_generate_iff.mp (congrArg isNull hv.symm)
    exact ⟨Value.null.inj hv, names, rfl, hs⟩
  · rintro ⟨rfl, names, rfl, hdynamic⟩
    obtain ⟨g', hat⟩ := exists_at_generate hdynamic g
    exact hat

/-! ## Collections -/

/-- Whether a value is no collection with something in it. -/
def holdsNothing : Value → Bool
  | .list _ elements => elements.isEmpty
  | .set _ elements => elements.isEmpty
  | .map _ entries => entries.isEmpty
  | _ => true

/-- All collections in a generated value are empty. -/
theorem everywhere_holdsNothing_generate (t : Ty) (g : Generator) :
    (g.generate t).1.everywhere holdsNothing = true := by
  refine everywhere_of_hereditary (P := fun v => ∃ t g, v = (Generator.generate t g).1)
    ?parts ?here ⟨t, g, rfl⟩
  case parts =>
    rintro _ ⟨t, g, rfl⟩ w hw
    cases t with
    | object attributes =>
      obtain ⟨f, hf, rfl⟩ := List.mem_map.mp hw
      obtain ⟨u, -, g', hv⟩ := (Generator.aligned_generateFields attributes g).exists_left hf
      exact ⟨u, g', hv⟩
    | _ => cases hw
  case here =>
    rintro _ ⟨t, g, rfl⟩
    cases t <;> rfl

/-! ## All of it -/

/-- **Generated values fit their types.** Wherever its stream is, a generator makes of every type a
value of that very type, at every depth and with the attributes in their order. It is known, it has
nulls where chains of attributes lead to the dynamic type and nowhere else, all collections in it
are empty, and it converts to the type as it is. -/
theorem generate_fits {t : Ty} (ht : t.isWellFormed = true) (g : Generator) :
    (g.generate t).1.ty = t ∧
      (g.generate t).1.HasType t ∧
      Conforms (g.generate t).1 t ∧
      (g.generate t).1.isWhollyKnown = true ∧
      (∀ path u, (g.generate t).1.at? path = some (.null u) ↔
        u = .dynamic ∧ ∃ names, path = names.map .attr ∧ t.follow? names = some .dynamic) ∧
      (g.generate t).1.everywhere holdsNothing = true ∧
      (g.generate t).1.convert t = .ok (g.generate t).1 :=
  ⟨ty_generate t g, hasType_generate t g, conforms_generate ht g,
    Generator.isWhollyKnown_generate t g, fun _ _ => at_generate_eq_null_iff,
    everywhere_holdsNothing_generate t g, convert_generate ht g⟩

/-- A type with an open attribute in an object in an object, and with one in a list. -/
def appliance : Ty :=
  .object [("name", .string), ("plug", .object [("volts", .number), ("options", .dynamic)]),
    ("notes", .list (.object [("text", .dynamic)])), ("tags", .set .string)]

/-- What is generated of it has a null at the open attribute that is in no list. -/
theorem generate_fits_appliance :
    ((Generator.seeded 0).generate appliance).1.ty = appliance ∧
      ((Generator.seeded 0).generate appliance).1.at? [.attr "plug", .attr "options"] =
        some (.null .dynamic) ∧
      ((Generator.seeded 0).generate appliance).1.convert appliance =
        .ok ((Generator.seeded 0).generate appliance).1 := by
  obtain ⟨hty, -, -, -, hnull, -, hconvert⟩ :=
    generate_fits (t := appliance) (by decide) (Generator.seeded 0)
  exact ⟨hty, (hnull _ _).mpr ⟨rfl, ["plug", "options"], rfl, rfl⟩, hconvert⟩

end Value

end ProviderMock
