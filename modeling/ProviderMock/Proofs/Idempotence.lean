import ProviderMock.Proofs.Filling
import ProviderMock.Proofs.Sets

/-!
# Synthesis is idempotent

What comes out of a synthesis is completed already: the same synthesis of it, with whatever
generator, comes to the same value.

`Context.Fixed` says this of one field, for one replacement. Results are fixed, by induction on the
schema:

* **leaves** — `Context.leaf_leaf`: a leaf is set after it is filled, or it is filled again with
  what it has.
* **objects** — `Context.fixedObject_object`: of two fields of one name the last one counts, in the
  first run and in the second one. The other one may be filled anew in the second run, for it finds
  there what the last one left; so the second run may draw, unless no name stands for two fields.
* **collections** — `Collection.exists_children_build`: a collection that was put together comes
  apart into elements that make it up again.
-/

namespace ProviderMock

namespace Walk

variable {α β : Type}

/-- A walk that comes to `a` wherever it starts, and draws nothing as long as `still` holds. -/
def Settles (still : Prop) (m : Walk α) (a : α) : Prop :=
  ∀ p, (m p).1 = a ∧ (still → (m p).2.generator = p.generator)

variable {still : Prop} {m : Walk α} {a : α}

theorem settles_pure (a : α) : Settles still (pure a) a := fun _ => ⟨rfl, fun _ => rfl⟩

theorem Settles.bind {f : α → Walk β} {b : β} (hm : Settles still m a)
    (hf : Settles still (f a) b) : Settles still (m >>= f) b := by
  intro p
  obtain ⟨ha, hgenerator⟩ := hm p
  rw [bind_apply, ha]
  exact ⟨(hf _).1, fun h => ((hf _).2 h).trans (hgenerator h)⟩

/-- A walk over values settles on them if the walk over each of them does. -/
theorem settles_each {f : Value → Path → Walk Value} {children : List (PathStep × Value)}
    (hf : ∀ child ∈ children, ∀ path, Settles still (f child.2 path) child.2) (path : Path) :
    Settles still (each f path children) children := by
  induction children with
  | nil => exact settles_pure []
  | cons child rest ih =>
    have hrest := ih fun child hchild => hf child (List.mem_cons_of_mem _ hchild)
    exact (hf child List.mem_cons_self _).bind (hrest.bind (settles_pure _))

end Walk

/-- The values under positions are the values. -/
theorem map_snd_indexed (start : Nat) (values : List Value) :
    (indexed start values).map Prod.snd = values := by
  induction values generalizing start with
  | nil => rfl
  | cons v rest ih => rw [indexed, List.map_cons, ih]

/-- Entries under their keys build a map of the entries. -/
theorem Collection.build_keyed (t : Ty) (entries : List (String × Value)) :
    Collection.map.build t (entries.map fun entry => (PathStep.key entry.1, entry.2)) =
      .mapOf t entries := by
  rw [build, List.filterMap_map]
  exact congrArg (Value.mapOf t) List.filterMap_some

/-- A collection that was built comes apart into children that build it again, and their values are
among those that it was built of. -/
theorem Collection.exists_children_build (collection : Collection) (t : Ty)
    (results : List (PathStep × Value)) :
    ∃ children, collection.children? (collection.build t results) = some children ∧
      collection.build t children = collection.build t results ∧
      ∀ child ∈ children, ∃ result ∈ results, result.2 = child.2 := by
  obtain ⟨elements, helements, hmem⟩ := collection.exists_contents_build t results
  have hchildren : ∃ children, collection.children? (collection.build t results) = some children ∧
      collection.build t children = collection.build t results := by
    cases collection with
    | list => exact ⟨_, rfl, by rw [build, build, map_snd_indexed]⟩
    | set =>
      exact ⟨_, rfl, by
        rw [build, build, map_snd_indexed, Value.setOf, Value.setOf, Value.distinct_distinct]⟩
    | map =>
      exact ⟨_, rfl, by
        rw [build_keyed, build, Value.mapOf, Value.mapOf,
          Entries.ofList_eq_self (Entries.ascending_ofList _)]⟩
  obtain ⟨children, hchildren, hbuild⟩ := hchildren
  exact ⟨children, hchildren, hbuild, fun child hchild =>
    hmem _ (mem_of_mem_children helements hchildren hchild)⟩

namespace Synthesis

namespace Context

variable (context : Context)

/-- Completing the value of a field once more changes nothing. If no name stands for two fields it
draws nothing either. -/
def Fixed (part : Part) (r : Option Value) (v : Value) : Prop :=
  ∀ path, Walk.Settles part.Unambiguous (context.field part v r path) v

/-- Completing an object once more changes nothing. -/
def FixedObject (parts : List (String × Part)) (r : Option Value) (v : Value) : Prop :=
  ∀ path, Walk.Settles (Fields.Distinct parts ∧ Part.AllUnambiguous parts)
    (context.object parts v r path) v

/-- **A leaf that was filled stays as it is.** -/
theorem leaf_leaf (t : Ty) (target : Value) (r : Option Value) (path : Path) (p : Progress)
    (path' : Path) :
    context.leaf t (context.leaf t target r path p).1 r path' =
      pure (context.leaf t target r path p).1 := by
  cases hunset : context.mode.isUnset (context.leaf t target r path p).1 with
  | false => exact leaf_of_set hunset r path'
  | true =>
    rcases context.isUnset_leaf hunset with ⟨hmode, rfl, hnone, hnull⟩ | ⟨-, x, hx, hconvert⟩
    · rw [leaf_of_none hunset hnone, hnull, fallback, hmode]
      rfl
    · exact leaf_of_ok hunset hx hconvert path'

/-! ## Objects -/

/-- The fields that a walk makes are made by walks over each. -/
theorem aligned_fields (parts : List (String × Part)) (target : Value) (r : Option Value)
    (path : Path) (p : Progress) :
    Fields.Aligned (fun name part v => ∃ path p, v = (context.field part
      (target.fieldOr name part.type) (r.bind (·.field? name)) path p).1) parts
      (context.fields parts target r path p).1 := by
  induction parts generalizing p with
  | nil => exact .nil
  | cons part rest ih => exact .cons ⟨rfl, _, _, rfl⟩ (ih _)

/-- A walk over fields draws nothing if the walk over each field does not. -/
theorem generator_fields {parts : List (String × Part)} {target : Value} {r : Option Value}
    (h : ∀ part ∈ parts, ∀ path p, (context.field part.2 (target.fieldOr part.1 part.2.type)
      (r.bind (·.field? part.1)) path p).2.generator = p.generator)
    (path : Path) (p : Progress) :
    (context.fields parts target r path p).2.generator = p.generator := by
  induction parts generalizing p with
  | nil => rfl
  | cons part rest ih =>
    obtain ⟨hpart, hrest⟩ := List.forall_mem_cons.mp h
    exact (ih hrest _).trans (hpart _ p)

variable {context} {parts : List (String × Part)} {r : Option Value}

/-- **An object that was completed is fixed** if what each of its fields is completed to is. -/
theorem fixedObject_object
    (h : ∀ part ∈ parts, ∀ target r path p,
      context.Fixed part.2 r (context.field part.2 target r path p).1)
    (target : Value) (path : Path) (p : Progress) :
    context.FixedObject parts r (context.object parts target r path p).1 := by
  intro path' q
  have hfirst := context.aligned_fields parts target r path p
  have hagain := context.aligned_fields parts (context.object parts target r path p).1 r path' q
  constructor
  · -- what counts in both runs is the last field of each name
    have hfirst := Fields.aligned_ofList hfirst
    have hagain := Fields.aligned_ofList hagain
    refine congrArg Value.object (Fields.eq_of_lookup_eq (Fields.distinct_ofList _)
      (hagain.names_eq.symm.trans hfirst.names_eq) fun name v w hv hw => ?_)
    obtain ⟨part, hpart, path₁, p₁, rfl⟩ := hagain.lookup hv
    obtain ⟨part', hpart', path₂, p₂, rfl⟩ := hfirst.lookup hw
    obtain rfl := Option.some.inj (hpart.symm.trans hpart')
    have hfield : (context.object parts target r path p).1.fieldOr name part.type =
        (context.field part (target.fieldOr name part.type) (r.bind (·.field? name)) path₂ p₂).1 :=
      congrArg (Option.getD · _) hw
    rw [hfield]
    have hmem := Fields.mem_of_mem_ofList (Fields.mem_of_lookup hpart)
    exact (h _ hmem _ _ path₂ p₂ path₁ p₁).1
  · rintro ⟨hdistinct, hparts⟩
    rw [Part.allUnambiguous_iff] at hparts
    refine context.generator_fields (fun part hpart path₁ p₁ => ?_) path' q
    obtain ⟨⟨name, v⟩, hv, rfl, path₂, p₂, rfl⟩ := exists_mem_right hfirst hpart
    have hfresh := hfirst.distinct hdistinct
    have hfield : (context.object parts target r path p).1.fieldOr part.1 part.2.type =
        (context.field part.2 (target.fieldOr part.1 part.2.type) (r.bind (·.field? part.1))
          path₂ p₂).1 := by
      refine Value.fieldOr_of_mem (Fields.distinct_ofList _) ?_ _
      rw [Fields.ofList_eq_self hfresh]
      exact hv
    rw [hfield]
    exact (h part hpart _ _ path₂ p₂ path₁ p₁).2 (hparts part hpart)

/-! ## Fields -/

/-- Looking for nested objects draws nothing, and comes to the same wherever it is done. -/
theorem settles_nestedReplacement {still : Prop} (r : Option Value) (path : Path) :
    Walk.Settles still (context.nestedReplacement r path)
      (r.filter fun x => !x.isNull && x.isObject) :=
  fun p => ⟨context.value_nestedReplacement r path p,
    fun _ => context.generator_nestedReplacement r path p⟩

/-- A nested object is fixed as a field if it is as an object. -/
theorem fixed_single {v : Value}
    (h : context.FixedObject parts (r.filter fun x => !x.isNull && x.isObject) v) :
    context.Fixed (.nested .single parts) r v := by
  intro path
  rw [field_single]
  exact (settles_nestedReplacement r path).bind (h path)

/-- What is no collection is fixed if it does not become an empty one. -/
theorem fixed_of_absent {collection : Collection} {v : Value}
    (habsent : collection.children? v = none) (hkept : context.mode.empties v = false) :
    context.Fixed (.nested (.many collection) parts) r v := by
  intro path
  rw [context.field_of_absent parts r path habsent, absent_eq, hkept]
  exact (settles_nestedReplacement r path).bind (Walk.settles_pure v)

/-- A collection that was built is fixed if what it was built of are objects that are. -/
theorem fixed_build (collection : Collection) {results : List (PathStep × Value)}
    (h : ∀ result ∈ results,
      context.FixedObject parts (r.filter fun x => !x.isNull && x.isObject) result.2) :
    context.Fixed (.nested (.many collection) parts) r
      (collection.build (Part.objectType parts) results) := by
  intro path
  obtain ⟨children, hchildren, hbuild, hmem⟩ :=
    collection.exists_children_build (Part.objectType parts) results
  rw [context.field_of_children parts r path hchildren]
  refine (settles_nestedReplacement r path).bind
    ((Walk.settles_each (fun child hchild path => ?_) path).bind ?_)
  · obtain ⟨result, hresult, heq⟩ := hmem child hchild
    rw [← heq]
    exact h result hresult path
  · rw [hbuild]
    exact Walk.settles_pure _

/-- **What a field was completed to is fixed.** -/
theorem fixed_field (part : Part) (target : Value) (r : Option Value) (path : Path) (p : Progress) :
    context.Fixed part r (context.field part target r path p).1 := by
  induction part using Part.induction generalizing target r path p with
  | leaf t computed =>
    intro path'
    cases computed with
    | false => exact Walk.settles_pure _
    | true =>
      rw [field, field, if_pos rfl, if_pos rfl, leaf_leaf]
      exact Walk.settles_pure _
  | nested nesting parts ih =>
    -- the objects that the field holds are completed with what is of use of the replacement
    have hobject : ∀ child path' p',
        context.FixedObject parts (r.filter fun x => !x.isNull && x.isObject)
          (context.object parts child (context.nestedReplacement r path p).1 path' p').1 := by
      intro child path' p'
      rw [value_nestedReplacement]
      exact fixedObject_object ih child path' p'
    cases nesting with
    | single => exact fixed_single (hobject target path _)
    | many collection =>
      cases hchildren : collection.children? target with
      | none =>
        rw [context.field_of_absent parts r path hchildren]
        show context.Fixed _ r (context.absent (collection.build _ []) target)
        rw [absent_eq]
        split
        · exact fixed_build collection fun _ hresult => absurd hresult List.not_mem_nil
        · rename_i hkept
          exact fixed_of_absent hchildren (Bool.eq_false_iff.mpr hkept)
      | some children =>
        rw [context.field_of_children parts r path hchildren]
        refine fixed_build collection fun result hresult => ?_
        obtain ⟨child, -, -, hfixed⟩ := exists_mem_left
          (forall₂_each (R := fun _ => context.FixedObject parts _) hobject path children _) hresult
        exact hfixed

/-- What an object was completed to is fixed. -/
theorem fixed_object (parts : List (String × Part)) (target : Value) (r : Option Value)
    (path : Path) (p : Progress) :
    context.FixedObject parts r (context.object parts target r path p).1 :=
  fixedObject_object (fun part _ => fixed_field part.2) target path p

end Context

end Synthesis

open Synthesis

/-- **Synthesis is idempotent.** What comes out of a walk along a block, or of a synthesis, comes to
itself again in the same mode with the same replacement, and with whatever generator. If no nested
block has the name of an attribute, nothing is drawn for it. Nothing is assumed of the target. -/
theorem synthesize_idempotent (schema : Block) (mode : Mode) (target : Value) :
    (∀ (range : SourceRange) (r : Option Value) (path₁ path₂ : Path) (p₁ p₂ : Progress),
      let context : Context := ⟨mode, range⟩
      let v := (context.block schema target r path₁ p₁).1
      let again := context.block schema v r path₂ p₂
      again.1 = v ∧ (schema.isWellFormed = true → schema.isUnambiguous = true →
        again.2.generator = p₂.generator)) ∧
    ∀ (r : Replacement) (g₁ g₂ : Generator),
      let done := synthesize mode schema target r g₁
      let again := synthesize mode schema done.value r g₂
      again.value = done.value ∧ (schema.isWellFormed = true → schema.isUnambiguous = true →
        again.generator = g₂) := by
  have hblock : ∀ (range : SourceRange) (r : Option Value) (path₁ path₂ : Path)
      (p₁ p₂ : Progress),
      let context : Context := ⟨mode, range⟩
      let v := (context.block schema target r path₁ p₁).1
      let again := context.block schema v r path₂ p₂
      again.1 = v ∧ (schema.isWellFormed = true → schema.isUnambiguous = true →
        again.2.generator = p₂.generator) := by
    intro range r path₁ path₂ p₁ p₂
    obtain ⟨hvalue, hgenerator⟩ :=
      (⟨mode, range⟩ : Context).fixed_object schema.parts target r path₁ p₁ path₂ p₂
    exact ⟨hvalue, fun hschema hunambiguous =>
      hgenerator (Block.unambiguous_parts schema hschema hunambiguous)⟩
  exact ⟨hblock, fun r g₁ g₂ => hblock r.range r.usable.1 Path.root Path.root ⟨g₁, []⟩ ⟨g₂, []⟩⟩

/-! ### A network -/

/-- The loose network is read with serial numbers, which makes one of two rules and a map of an
object. What it is read as is read as the same with another generator. -/
theorem synthesize_idempotent_looseNetwork :
    network.isWellFormed = true ∧ network.isUnambiguous = true ∧
      let done := readDataSource network looseNetwork someSerials (Generator.seeded 0)
      let again := readDataSource network done.value someSerials (Generator.seeded 1)
      again.value = done.value ∧ again.generator = Generator.seeded 1 := by
  have h := (synthesize_idempotent network .read looseNetwork).2 someSerials (Generator.seeded 0)
    (Generator.seeded 1)
  exact ⟨by decide, by decide, h.1, h.2 (by decide) (by decide)⟩

end ProviderMock
