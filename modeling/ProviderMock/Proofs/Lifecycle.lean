import ProviderMock.Proofs.Congruence
import ProviderMock.Proofs.Quiet
import ProviderMock.Proofs.Refinement
import ProviderMock.Proofs.Soundness

/-!
# Planning and applying is reading

A resource that is planned without a replacement, and then applied with one, goes through what the
reading of a data source goes through at once. The plan makes unknown what is null and computed, and
applying fills what is unknown, in the same order and from the same places of the replacement.

This holds for targets of the type of the schema, and where the schema has no sets. The elements of
a planned set that differ in nothing but unset leaves are one element when they are applied; and an
object in place of a map is read in its own order but applied in the order of the keys.

* **targets** — `Fits`: known values of a type, and `Fits.fieldOr`, `Fits.elements`, `Fits.entries`
  for what they consist of.
* **the relation** — `Completes.read_eq_apply`: reading a target is applying what was planned of
  it.
-/

namespace ProviderMock

namespace Part

mutual

/-- Whether no objects of a field are held in a set. -/
def isSetFree : Part → Bool
  | .leaf _ _ => true
  | .nested nesting parts => decide (nesting ≠ .many .set) && areSetFree parts
termination_by structural p => p

/-- Whether no objects of fields are held in a set. -/
def areSetFree : List (String × Part) → Bool
  | [] => true
  | (_, p) :: rest => p.isSetFree && areSetFree rest
termination_by structural ps => ps

end

theorem areSetFree_iff {parts : List (String × Part)} :
    areSetFree parts = true ↔ ∀ p ∈ parts, p.2.isSetFree = true := by
  induction parts with
  | nil => simp [areSetFree]
  | cons p rest ih => simp [areSetFree, ih]

end Part

/-- Whether no nested objects of a block, at any depth, are held in a set. -/
def Block.isSetFree (b : Block) : Bool := Part.areSetFree b.parts

/-! ## Targets -/

/-- A known and well-formed value of a type. -/
structure Fits (t : Ty) (v : Value) : Prop where
  wellFormed : v.isWellFormed = true
  known : v.isWhollyKnown = true
  conforms : Conforms v t

namespace Fits

/-- The fields of a target of the type of an object fit their parts. -/
theorem fieldOr {parts : List (String × Part)} (hdistinct : Fields.Distinct parts) {target : Value}
    (h : Fits (Part.objectType parts) target) {part : String × Part} (hpart : part ∈ parts)
    (hwell : part.2.WellFormed) : Fits part.2.type (target.fieldOr part.1 part.2.type) := by
  have hnames : Fields.Distinct (Fields.mapValues Part.type parts) := by
    rw [Fields.Distinct, Fields.names_mapValues]
    exact hdistinct
  have htype : Part.objectType parts = .object (Fields.mapValues Part.type parts) := by
    rw [Part.objectType, Ty.ofFields, Part.types_eq_mapValues, Fields.ofList_eq_self hnames]
  have hlookup : (Fields.mapValues Part.type parts).lookup part.1 = some part.2.type :=
    Fields.lookup_of_mem hnames (List.mem_map.mpr ⟨part, hpart, rfl⟩)
  refine ⟨?_, Value.isWhollyKnown_fieldOr h.known _ _,
    conforms_fieldOr (.inr (htype ▸ h.conforms)) hlookup hwell.type⟩
  cases target with
  | object fields =>
    cases hfield : fields.lookup part.1 with
    | none =>
      rw [Value.fieldOr, hfield]
      exact hwell.type
    | some v =>
      rw [Value.fieldOr, hfield]
      exact Value.isWellFormed_of_mem_named h.wellFormed rfl _ (Fields.mem_of_lookup hfield)
  | _ => exact hwell.type

/-- The elements of a target of a list type fit the element type. -/
theorem elements {target : Value} {u : Ty} (h : Fits (.list u) target) {elements : List Value}
    (helements : target.elements? = some elements) : ∀ e ∈ elements, Fits u e := fun e he =>
  ⟨Value.isWellFormed_of_mem_elements h.wellFormed helements e he,
    Value.isWhollyKnown_of_mem_elements h.known helements e he,
    Conforms.elements (.inl h.conforms) helements e he⟩

/-- The entries of a target of a map type are in the order of their keys, and fit the element
type. -/
theorem entries {target : Value} {u : Ty} (h : Fits (.map u) target)
    {entries : List (String × Value)} (hentries : target.named? = some entries) :
    Entries.Ascending entries ∧ ∀ e ∈ entries, Fits u e.2 := by
  obtain ⟨⟨t, rfl⟩, hconforms⟩ := h.conforms.entries hentries
  exact ⟨Value.ascending_of_isWellFormed h.wellFormed, fun e he =>
    ⟨Value.isWellFormed_of_mem_named h.wellFormed hentries e he,
      Value.isWhollyKnown_of_mem_named h.known hentries e he, hconforms e he⟩⟩

end Fits

namespace Synthesis

open Fields (Aligned)

/-! ## Leaves -/

/-- A plan without a replacement leaves what is unset unknown. -/
def Postponed (t : Ty) (v : Value) : Prop := v = .unknown t

variable (range : SourceRange)

/-- What a read finds null is filled as what a plan leaves unknown. -/
theorem Context.read_leaf_eq_apply {t : Ty} {target planned : Value}
    (hknown : target.isWhollyKnown = true)
    (h : if Mode.plan.isUnset target then planned = .unknown t else planned = target)
    (r : Option Value) (path : Path) :
    (⟨.read, range⟩ : Context).leaf t target r path =
      (⟨.apply, range⟩ : Context).leaf t planned r path := by
  split at h
  · rename_i hnull
    have hread : Mode.read.isUnset target = true := hnull
    have happly : Mode.apply.isUnset (.unknown t) = true := rfl
    rw [h, leaf, leaf, if_pos hread, if_pos happly]
    rfl
  · rename_i hset
    have hread : Mode.read.isUnset target = false := Bool.eq_false_iff.mpr hset
    have happly : Mode.apply.isUnset target = false := Value.isUnknown_of_isWhollyKnown hknown
    rw [h]
    exact (leaf_of_set hread r path).trans (leaf_of_set happly r path).symm

/-! ## Nested objects -/

variable {range} {parts : List (String × Part)} {target planned : Value}

/-- Reading an object is applying the planned one if it is for each field. -/
theorem CompletesObject.read_eq_apply_of_parts (hdistinct : Fields.Distinct parts)
    (hwell : ∀ q ∈ parts, q.2.WellFormed)
    (ih : ∀ q ∈ parts, ∀ target planned, Completes .plan Postponed q.2 target planned →
      Fits q.2.type target → ∀ r path, (⟨.read, range⟩ : Context).field q.2 target r path =
        (⟨.apply, range⟩ : Context).field q.2 planned r path)
    (h : CompletesObject .plan Postponed parts target planned)
    (htarget : Fits (Part.objectType parts) target) (r : Option Value) (path : Path) :
    (⟨.read, range⟩ : Context).object parts target r path =
      (⟨.apply, range⟩ : Context).object parts planned r path :=
  Context.object_congr (fun q hq r path =>
    ih q hq _ _ (h.field hdistinct hq) (htarget.fieldOr hdistinct hq (hwell q hq)) r path) r path

/-- What is no collection is read as it is planned and applied. -/
theorem Completes.read_eq_apply_of_absent {collection : Collection}
    (h : Completes .plan Postponed (.nested (.many collection) parts) target planned)
    (habsent : collection.children? target = none) (hknown : target.isWhollyKnown = true)
    (r : Option Value) (path : Path) :
    (⟨.read, range⟩ : Context).field (.nested (.many collection) parts) target r path =
      (⟨.apply, range⟩ : Context).field (.nested (.many collection) parts) planned r path := by
  rw [Context.field_of_absent _ parts r path habsent, Context.absent_eq]
  rcases keeps_of_known hknown (h.absent habsent) with ⟨hnull, rfl⟩ | ⟨rfl, hnull, -⟩
  · -- the read comes to an empty collection, and the plan has one already
    have hread : Mode.read.empties target = true := by
      rw [Mode.empties, hnull]
      rfl
    have hempty : collection.children? (collection.build (Part.objectType parts) []) = some [] := by
      cases collection <;> rfl
    rw [if_pos hread, Context.field_of_children _ parts r path hempty]
    rfl
  · have hread : Mode.read.empties planned = false := by
      rw [Mode.empties, hnull]
      rfl
    have happly : Mode.apply.empties planned = false := empties_of_known hnull hknown
    rw [Context.field_of_absent _ parts r path habsent, Context.absent_eq, hread, happly]
    rfl

/-- **Reading a target is applying what was planned of it without a replacement.** -/
theorem Completes.read_eq_apply {part : Part} (hunambiguous : part.Unambiguous)
    (hwell : part.WellFormed) (hfree : part.isSetFree = true)
    (h : Completes .plan Postponed part target planned) (htarget : Fits part.type target)
    (r : Option Value) (path : Path) :
    (⟨.read, range⟩ : Context).field part target r path =
      (⟨.apply, range⟩ : Context).field part planned r path := by
  induction part using Part.induction generalizing target planned r path with
  | leaf t computed =>
    cases computed with
    | false =>
      obtain rfl : planned = target := h
      rfl
    | true => exact Context.read_leaf_eq_apply range htarget.known h r path
  | nested nesting parts ih =>
    obtain ⟨hdistinct, hparts⟩ := hunambiguous
    rw [Part.allUnambiguous_iff] at hparts
    have hwells := Part.allWellFormed_iff.mp hwell
    rw [Part.isSetFree, Bool.and_eq_true, decide_eq_true_iff, Part.areSetFree_iff] at hfree
    obtain ⟨hset, hfree⟩ := hfree
    have hrange : (⟨.read, range⟩ : Context).range = (⟨.apply, range⟩ : Context).range := rfl
    have hobject : ∀ {target planned}, CompletesObject .plan Postponed parts target planned →
        Fits (Part.objectType parts) target → ∀ r path,
        (⟨.read, range⟩ : Context).object parts target r path =
          (⟨.apply, range⟩ : Context).object parts planned r path := fun h htarget =>
      h.read_eq_apply_of_parts hdistinct hwells (fun q hq _ _ h htarget =>
        ih q hq (hparts q hq) (hwells q hq) (hfree q hq) h htarget) htarget
    cases nesting with
    | single => exact Context.field_single_congr hrange (hobject h htarget) r path
    | many collection =>
      cases hchildren : collection.children? target with
      | none => exact h.read_eq_apply_of_absent hchildren htarget.known r path
      | some children =>
        cases collection with
        | set => exact absurd rfl hset
        | list =>
          obtain ⟨elements, helements, rfl⟩ := Option.map_eq_some_iff.mp hchildren
          obtain ⟨vs, hvs, rfl⟩ := h.list helements
          have hboth := (List.forall₂_and_left elements vs).mpr
            ⟨htarget.elements helements, hvs⟩
          have heach := hboth.imp fun _ _ hfit => hobject hfit.2 hfit.1
          exact Context.field_many_congr hrange hchildren rfl (forall₂_indexed heach 0) r path
        | map =>
          obtain ⟨entries, hentries, rfl⟩ := Option.map_eq_some_iff.mp hchildren
          obtain ⟨vs, hvs, rfl⟩ := h.map hentries
          obtain ⟨hascending, hfits⟩ := htarget.entries hentries
          -- the plan has the keys in the same order as the target
          have hkeys : Entries.Ascending vs := Entries.ascending_of_aligned hvs hascending
          have heach := hvs.imp fun _ _ _ hmem hv => hobject hv (hfits _ hmem)
          rw [Value.mapOf, Entries.ofList_eq_self hkeys]
          exact Context.field_many_congr hrange hchildren rfl (forall₂_keyed heach) r path

end Synthesis

open Synthesis

/-- **Planning and applying is reading.** A known target of the type of a schema without sets is
planned without a replacement, which draws and reports nothing. Applying the plan then has the
value, the diagnostics and the generator of reading the target at once, with the same replacement
and the same generator. -/
theorem apply_plan_eq_read (schema : Block) (hschema : schema.isWellFormed = true)
    (hunambiguous : schema.isUnambiguous = true) (hfree : schema.isSetFree = true) (target : Value)
    (htarget : Fits schema.impliedType target) (range : SourceRange) (g₀ : Generator) :
    let planned := planResource schema target ⟨none, range⟩ g₀
    (planned.diagnostics = [] ∧ planned.generator = g₀) ∧
      ∀ (r : Replacement) (g : Generator),
        applyResource schema planned.value r g = readDataSource schema target r g := by
  intro planned
  refine ⟨quiet_plan schema target range g₀, fun r g => ?_⟩
  obtain ⟨hdistinct, hparts⟩ := Block.unambiguous_parts schema hschema hunambiguous
  rw [Part.allUnambiguous_iff] at hparts
  have hwells := Part.allWellFormed_iff.mp (Block.wellFormed_parts schema hschema)
  have hfrees := Part.areSetFree_iff.mp hfree
  have hplan : CompletesObject .plan Postponed schema.parts target planned.value :=
    completes_synthesize (Q := fun _ => False) (fun _ _ _ hx => hx.elim)
      (fun t target x path p hunset hx => by
        rcases Context.leaf_cases ⟨.plan, range⟩ hunset x path p with
          ⟨y, hy, -⟩ | ⟨-, hunknown⟩ | ⟨hmode, -⟩
        · exact (hx y hy).elim
        · exact hunknown
        · exact absurd rfl hmode)
      schema target (fun _ hx => absurd hx (Option.not_mem_none _)) g₀
  rw [Block.impliedType_eq] at htarget
  have hwalk : (⟨.read, r.range⟩ : Context).block schema target r.usable.1 Path.root =
      (⟨.apply, r.range⟩ : Context).block schema planned.value r.usable.1 Path.root :=
    hplan.read_eq_apply_of_parts hdistinct hwells
      (fun q hq _ _ h htarget => h.read_eq_apply (hparts q hq) (hwells q hq) (hfrees q hq) htarget)
      htarget r.usable.1 Path.root
  rw [applyResource, readDataSource, synthesize, synthesize, hwalk]

/-! ### A cluster

A schema with every kind of nesting but sets, and a target with hardly anything set. -/

/-- The schema of a cluster. -/
def cluster : Block :=
  .mk [("id", .plain .string true),
      ("status", .nested .dynamic false .single [("state", .plain .dynamic true)])]
    [("node", .many .list, gateway), ("volume", .many .map, gateway)]

/-- A cluster without a status, with two nodes, one of them null, and with one volume. -/
def bareCluster : Value :=
  .object [("id", .null .string), ("status", .null (.object [("state", .dynamic)])),
    ("node", .list (.object [("address", .string), ("serial", .string)])
      [.null (.object [("address", .string), ("serial", .string)]),
        .object [("address", .string "a"), ("serial", .null .string)]]),
    ("volume", .map (.object [("address", .string), ("serial", .string)])
      [("v", .object [("address", .null .string), ("serial", .null .string)])])]

theorem fits_bareCluster : Fits cluster.impliedType bareCluster := by
  have hnode : Conforms (.object [("address", .string "a"), ("serial", .null .string)])
      (.object [("address", .string), ("serial", .string)]) :=
    conforms_object_of_aligned (.cons ⟨rfl, .string _⟩ (.cons ⟨rfl, .null rfl⟩ .nil))
  have hvolume : Conforms (.object [("address", .null .string), ("serial", .null .string)])
      (.object [("address", .string), ("serial", .string)]) :=
    conforms_object_of_aligned (.cons ⟨rfl, .null rfl⟩ (.cons ⟨rfl, .null rfl⟩ .nil))
  refine ⟨by decide, rfl, conforms_object_of_aligned (.cons ⟨rfl, .null rfl⟩
    (.cons ⟨rfl, .null rfl⟩ (.cons ⟨rfl, .list rfl ?_⟩ (.cons ⟨rfl, .map rfl ?_⟩ .nil))))⟩
  · exact List.forall_mem_cons.mpr ⟨.null rfl, List.forall_mem_singleton.mpr hnode⟩
  · exact List.forall_mem_singleton.mpr hvolume

/-- The cluster is read, and planned and applied, with serial numbers for its nodes and with an
identifier that does not convert. -/
theorem apply_plan_eq_read_bareCluster :
    cluster.isWellFormed = true ∧ cluster.isUnambiguous = true ∧ cluster.isSetFree = true ∧
      Fits cluster.impliedType bareCluster ∧
      let planned := planResource cluster bareCluster Replacement.absent (Generator.seeded 0)
      let r : Replacement := ⟨some (.object [("node", .object [("serial", .string "s")]),
        ("id", .list .string [])]), SourceRange.unspecified⟩
      (planned.diagnostics = [] ∧ planned.generator = Generator.seeded 0) ∧
        applyResource cluster planned.value r (Generator.seeded 1) =
          readDataSource cluster bareCluster r (Generator.seeded 1) := by
  have h := apply_plan_eq_read cluster (by decide) (by decide) (by decide) bareCluster
    fits_bareCluster SourceRange.unspecified (Generator.seeded 0)
  exact ⟨by decide, by decide, by decide, fits_bareCluster, h.1, h.2 _ _⟩

end ProviderMock
