import ProviderMock.Proofs.Alike
import ProviderMock.Proofs.Draws
import ProviderMock.Proofs.Retyping
import ProviderMock.Proofs.SameTargets

/-!
# The same inputs give the same value

The order of declarations, of fields and of the elements of sets makes no difference to what is the
same, but a walk follows it. What it results in does not depend on it, as long as nothing is drawn:
strings that are drawn come in the order of the walk.

* **leaves** — `Context.same_leaf`: leaves of types that are the same are filled alike, if no string
  is drawn for them.
* **objects** — `Context.SameObject`: walks over the fields of two objects result in the same.
* **fields** — `Context.sameField_of_alike`: so do walks over fields that are alike, by induction on
  what they have in common.
-/

namespace ProviderMock

/-! ## Leaves -/

namespace Value

/-- A regular value fills leaves of types that are the same, or none of them. -/
theorem fills_of_same {t u : Ty} (htu : t.same u = true) (ht : t.isWellFormed = true)
    (hu : u.isWellFormed = true) {x : Value} (hx : x.Regular) : x.fills t = x.fills u := by
  have hconverts : ∀ {t u : Ty}, ConvertAlike t u → x.fills t = true → x.fills u = true := by
    intro t u halike h
    obtain ⟨hnull, w, hw⟩ := fills_iff.mp h
    obtain ⟨w', hw', -⟩ := halike x w hx hw
    exact fills_iff.mpr ⟨hnull, w', hw'⟩
  rw [Bool.eq_iff_iff]
  exact ⟨hconverts (convertAlike_of_same htu ht hu),
    hconverts (convertAlike_of_same (Ty.same_symm ht htu) hu ht)⟩

/-- A regular replacement fills leaves of types that are the same, or none of them. -/
theorem any_fills_of_same {t u : Ty} (htu : t.same u = true) (ht : t.isWellFormed = true)
    (hu : u.isWellFormed = true) {r : Option Value} (hr : ∀ x ∈ r, x.Regular) :
    r.any (·.fills t) = r.any (·.fills u) := by
  cases r with
  | none => rfl
  | some x => exact fills_of_same htu ht hu (hr x rfl)

/-- The fields of regular values are regular. -/
theorem Regular.of_field {v w : Value} (hv : v.Regular) {name : String}
    (hw : v.field? name = some w) : w.Regular := by
  cases v with
  | object fields => exact hv.of_mem_parts (List.mem_map_of_mem (Fields.mem_of_lookup hw))
  | _ => cases hw

end Value

/-- What a regular replacement holds for a path is regular. -/
theorem Path.regular_of_mem_partOf {path : Path} {r : Option Value} (hr : ∀ x ∈ r, x.Regular) :
    ∀ x ∈ path.partOf r, x.Regular :=
  Path.of_mem_partOf (fun _ _ _ hx hy => hx.of_field hy) hr

/-- Attributes have no strings if none of them has one. -/
theorem Ty.attributeStringLeaves_eq_zero_iff {attributes : List (String × Ty)} :
    Ty.attributeStringLeaves attributes = 0 ↔ ∀ a ∈ attributes, a.2.stringLeaves = 0 := by
  induction attributes with
  | nil => simp [Ty.attributeStringLeaves]
  | cons a rest ih =>
    obtain ⟨name, t⟩ := a
    rw [Ty.attributeStringLeaves, Nat.add_eq_zero_iff, ih, List.forall_mem_cons]

/-- Where there are no strings to generate, generators make the same values of types that are the
same. -/
theorem Generator.same_generate {t u : Ty} (htu : t.same u = true) (ht : t.isWellFormed = true)
    (hnone : t.stringLeaves = 0) (g g' : Generator) :
    (g.generate t).1.same (g'.generate u).1 = true := by
  induction t using Ty.induction generalizing u g g' with
  | string => cases hnone
  | number | bool | dynamic => cases u <;> first | rfl | cases htu
  | list e _ =>
    cases u with
    | list d => exact Value.same_list_iff.mpr ⟨d, [], rfl, htu, .nil⟩
    | _ => cases htu
  | set e _ =>
    cases u with
    | set d => exact Value.same_set_iff.mpr ⟨d, [], rfl, htu, rfl, nofun⟩
    | _ => cases htu
  | map e _ =>
    cases u with
    | map d => exact Value.same_map_iff.mpr ⟨d, [], rfl, htu, .nil⟩
    | _ => cases htu
  | object as ih =>
    cases u with
    | object bs =>
      obtain ⟨has, hall⟩ := Ty.isWellFormed_object_iff.mp ht
      obtain ⟨hnames, hsame⟩ := (Ty.same_object_iff_of_distinct has).mp htu
      have hmade := aligned_generateFields as g
      have hmade' := aligned_generateFields bs g'
      refine (Value.same_object_iff_of_distinct (hmade.distinct has)).mpr
        ⟨?_, fun name a b ha hb => ?_⟩
      · rw [← hmade.names_eq, ← hmade'.names_eq]
        exact hnames
      · obtain ⟨t, ht, g, rfl⟩ := hmade.lookup ha
        obtain ⟨u, hu, g', rfl⟩ := hmade'.lookup hb
        have hmem := Fields.mem_of_lookup ht
        exact ih _ hmem (hsame name t u ht hu) (hall _ hmem)
          (Ty.attributeStringLeaves_eq_zero_iff.mp hnone _ hmem) g g'
    | _ => cases htu

namespace Synthesis

namespace Context

variable {context : Context} {r : Option Value}

/-- **Leaves that are the same are filled alike**, if what is generated for them is the same. -/
theorem same_leaf_of_generate {t u : Ty} (htu : t.same u = true) (ht : t.isWellFormed = true)
    (hu : u.isWellFormed = true) {v w : Value} (hvw : v.same w = true)
    (hr : ∀ x ∈ r, x.Regular) (path path' : Path) (p p' : Progress)
    (hgenerate : context.mode ≠ .plan → context.mode.isUnset v = true →
      r.any (·.fills t) = false →
      (p.generator.generate t).1.same (p'.generator.generate u).1 = true) :
    (context.leaf t v r path p).1.same (context.leaf u w r path' p').1 = true := by
  have hunset' := context.mode.isUnset_of_same hvw
  cases hunset : context.mode.isUnset v with
  | false =>
    rw [leaf_of_set hunset, leaf_of_set (hunset' ▸ hunset)]
    exact hvw
  | true =>
    rw [hunset] at hunset'
    have hfills' := Value.any_fills_of_same htu ht hu hr
    cases hfills : r.any (·.fills t) with
    | true =>
      obtain ⟨x, rfl, hx⟩ := (Option.any_eq_true _ _).mp hfills
      obtain ⟨hnull, a, ha⟩ := Value.fills_iff.mp hx
      obtain ⟨b, hb, hab⟩ := Value.convertAlike_of_same htu ht hu x a (hr x rfl) ha
      rw [leaf_of_converts rfl hnull ha, leaf_of_converts rfl hnull hb, hunset, ← hunset']
      exact hab
    | false =>
      obtain ⟨q, hq, hleaf⟩ := leaf_of_not_fills hunset hfills path p
      obtain ⟨q', hq', hleaf'⟩ := leaf_of_not_fills hunset'.symm (hfills' ▸ hfills) path' p'
      rw [hleaf, hleaf']
      by_cases hmode : context.mode = .plan
      · rw [fallback_of_plan hmode, fallback_of_plan hmode]
        exact htu
      · rw [fallback_of_ne_plan hmode, fallback_of_ne_plan hmode, Walk.generate_apply,
          Walk.generate_apply, hq, hq']
        exact hgenerate hmode hunset hfills

/-- Leaves that are the same are filled alike if no string is drawn for them. -/
theorem same_leaf {t u : Ty} (htu : t.same u = true) (ht : t.isWellFormed = true)
    (hu : u.isWellFormed = true) {v w : Value} (hvw : v.same w = true)
    (hr : ∀ x ∈ r, x.Regular)
    (hdraws : context.mode ≠ .plan → context.mode.isUnset v = true →
      r.any (·.fills t) = false → t.stringLeaves = 0)
    (path path' : Path) (p p' : Progress) :
    (context.leaf t v r path p).1.same (context.leaf u w r path' p').1 = true :=
  same_leaf_of_generate htu ht hu hvw hr path path' p p' fun hmode hunset hfills =>
    Generator.same_generate htu ht (hdraws hmode hunset hfills) _ _

/-- Targets that are no collections become the same, or stay. -/
theorem same_absent {empty empty' v w : Value} (hempty : empty.same empty' = true)
    (hvw : v.same w = true) :
    (context.absent empty v).same (context.absent empty' w) = true := by
  rw [absent_eq, absent_eq, context.mode.empties_of_same hvw]
  split
  · exact hempty
  · exact hvw

/-! ## Objects -/

/-- A walk over proper objects with a proper replacement results in proper ones. -/
theorem proper_object {parts : List (String × Part)} (hparts : ∀ p ∈ parts, p.2.WellFormed)
    {target : Value} (htarget : target.Proper) (hr : ∀ x ∈ r, x.Proper) (path : Path)
    (p : Progress) : (context.object parts target r path p).1.Proper := by
  simp only [Value.proper_iff] at htarget hr ⊢
  exact ⟨context.everywhere_object Value.robust_isOrdered (fun _ _ ht => ht) hparts htarget.1
      (fun x hx => (hr x hx).1) path p,
    context.everywhere_object Value.robust_holdsApart (fun _ _ _ => rfl) hparts htarget.2
      (fun x hx => (hr x hx).2) path p⟩

/-- Walks over two fields result in the same for targets that are the same, with what the
replacement holds for them, as long as the first one draws nothing. -/
def SameField (context : Context) (r : Option Value) (part other : Part) : Prop :=
  ∀ (v w : Value) (path : Path), v.Proper → w.Proper → v.same w = true → Conforms v part.type →
    (∀ visit ∈ part.visits v path, context.draws r visit = 0) →
    ∀ path₁ path₂ p₁ p₂, (context.field part v (path.partOf r) path₁ p₁).1.same
      (context.field other w (path.partOf r) path₂ p₂).1 = true

/-- Walks over the fields of two objects result in the same for targets that are the same. -/
def SameObject (context : Context) (r : Option Value) (parts others : List (String × Part)) :
    Prop :=
  ∀ (v w : Value) (path : Path) (held : Option Value), v.Proper → w.Proper → v.same w = true →
    Conforms v (Part.objectType parts) →
    (∀ visit ∈ Part.visitsFields parts v path, context.draws r visit = 0) →
    (∀ name, held.bind (·.field? name) = (path.step (.attr name)).partOf r) →
    ∀ path₁ path₂ p₁ p₂, (context.object parts v held path₁ p₁).1.same
      (context.object others w held path₂ p₂).1 = true

/-- A walk over a target that starts somewhere makes the value. -/
def Makes (context : Context) (parts : List (String × Part)) (held : Option Value)
    (target v : Value) : Prop :=
  ∃ path p, v = (context.object parts target held path p).1

section

variable {ps qs : List (String × Part)} (hps : ∀ p ∈ ps, p.2.WellFormed)
  (hqs : ∀ q ∈ qs, q.2.WellFormed)

include hps hqs

/-- **Objects that are the same are completed to the same** if their fields are: of several fields
of one name the last one counts. -/
theorem sameObject_of_fields
    (hnames : (Fields.names (Fields.ofList ps)).Perm (Fields.names (Fields.ofList qs)))
    (h : ∀ name p q, (Fields.ofList ps).lookup name = some p →
      (Fields.ofList qs).lookup name = some q → p.WellFormed → q.WellFormed →
      p.type.same q.type = true ∧ context.SameField r p q) :
    context.SameObject r ps qs := by
  intro v w path held hv hw hvw hconforms hdraws hheld path₁ path₂ p₁ p₂
  have hfirst := Fields.aligned_ofList (context.aligned_fields ps v held path₁ p₁)
  have hsecond := Fields.aligned_ofList (context.aligned_fields qs w held path₂ p₂)
  refine (Value.same_object_iff_of_distinct (Fields.distinct_ofList _)).mpr
    ⟨?_, fun name a b ha hb => ?_⟩
  · rw [← hfirst.names_eq, ← hsecond.names_eq]
    exact hnames
  · obtain ⟨p, hp, path₁, p₁, rfl⟩ := hfirst.lookup ha
    obtain ⟨q, hq, path₂, p₂, rfl⟩ := hsecond.lookup hb
    have hmem := Fields.mem_of_mem_ofList (Fields.mem_of_lookup hp)
    have hwell := hps _ hmem
    have hwell' := hqs _ (Fields.mem_of_mem_ofList (Fields.mem_of_lookup hq))
    obtain ⟨htypes, hfield⟩ := h name p q hp hq hwell hwell'
    have hlookup : (Fields.mapValues Part.type (Fields.ofList ps)).lookup name = some p.type := by
      rw [Fields.lookup_mapValues, hp]
      rfl
    rw [Part.objectType_eq] at hconforms
    rw [hheld]
    exact hfield _ _ _ (hv.fieldOr name hwell.type) (hw.fieldOr name hwell'.type)
      (Value.same_fieldOr hv hvw name htypes) (conforms_fieldOr (.inr hconforms) hlookup hwell.type)
      (fun visit hvisit => hdraws visit (Part.mem_visitsFields.mpr ⟨(name, p), hmem, hvisit⟩))
      path₁ path₂ p₁ p₂

/-- **Collections that are the same are completed to the same** if walks over the objects in them
result in the same. -/
theorem same_collection {collection : Collection} {held : Option Value}
    (hheld : ∀ x ∈ held, x.Proper)
    (htypes : (Part.objectType ps).same (Part.objectType qs) = true)
    {children others : List (PathStep × Value)}
    (hchildren : collection.SameChildren children others)
    (hproper : ∀ c ∈ children, c.2.Proper) (hproper' : ∀ d ∈ others, d.2.Proper)
    (h : ∀ c ∈ children, ∀ d ∈ others, c.2.same d.2 = true → ∀ path₁ path₂ p₁ p₂,
      (context.object ps c.2 held path₁ p₁).1.same (context.object qs d.2 held path₂ p₂).1 = true)
    (path₁ path₂ : Path) (p₁ p₂ : Progress) :
    (collection.build (Part.objectType ps) (Walk.each (fun child path =>
        context.object ps child held path) path₁ children p₁).1).same
      (collection.build (Part.objectType qs) (Walk.each (fun child path =>
        context.object qs child held path) path₂ others p₂).1) = true := by
  have hresults : ∀ (parts : List (String × Part)) path children p,
      List.Forall₂ (fun c a => c.1 = a.1 ∧ context.Makes parts held c.2 a.2) children
        (Walk.each (fun child path => context.object parts child held path) path children p).1 :=
    fun parts => forall₂_each fun v path p => ⟨path, p, rfl⟩
  refine collection.same_build htypes hchildren (hresults ps path₁ children p₁)
    (hresults qs path₂ others p₂) ?_ (fun a ha => ?_) fun b hb => ?_
  · rintro c hc d hd _ _ hcd ⟨path₁, p₁, rfl⟩ ⟨path₂, p₂, rfl⟩
    exact h c hc d hd hcd path₁ path₂ p₁ p₂
  · obtain ⟨c, hc, -, path, p, hca⟩ := exists_mem_left (hresults ps path₁ children p₁) ha
    exact hca ▸ proper_object hps (hproper c hc) hheld path p
  · obtain ⟨d, hd, -, path, p, hdb⟩ := exists_mem_left (hresults qs path₂ others p₂) hb
    exact hdb ▸ proper_object hqs (hproper' d hd) hheld path p

/-- **Fields that hold objects result in the same** if walks over the objects do. -/
theorem sameField_of_object (hr : ∀ path, ∀ x ∈ Path.partOf path r, x.Regular)
    (htypes : (Part.objectType ps).same (Part.objectType qs) = true)
    (h : context.SameObject r ps qs) (nesting : Nesting) :
    context.SameField r (.nested nesting ps) (.nested nesting qs) := by
  intro v w path hv hw hvw hconforms hdraws path₁ path₂ p₁ p₂
  -- all objects of the field are completed with what is of use of the replacement
  obtain ⟨held, hvalue⟩ : ∃ held, ∀ path' p,
      (context.nestedReplacement (path.partOf r) path' p).1 = held :=
    ⟨_, context.value_nestedReplacement (path.partOf r)⟩
  have hheld : ∀ object ∈ nesting.objects v path, ∀ name,
      held.bind (·.field? name) = (object.1.step (.attr name)).partOf r := by
    intro object hobject name
    rw [← hvalue path p₁]
    exact context.bind_field?_of_mem_objects hobject r p₁ name
  have hobject : ∀ object ∈ nesting.objects v path,
      ∀ visit ∈ Part.visitsFields ps object.2 object.1, context.draws r visit = 0 :=
    fun object hobject visit hvisit =>
      hdraws visit (Part.mem_visits_nested.mpr (.inr ⟨object, hobject, hvisit⟩))
  cases nesting with
  | single =>
    have hmem : (path, v) ∈ Nesting.single.objects v path := List.mem_cons_self
    rw [field_single, field_single, Walk.bind_apply, Walk.bind_apply, hvalue, hvalue]
    exact h v w path held hv hw hvw hconforms (hobject _ hmem) (hheld _ hmem) _ _ _ _
  | many collection =>
    have hsome := collection.isSome_children?_of_same hvw
    cases hchildren : collection.children? v with
    | none =>
      rw [hchildren] at hsome
      have hothers := Option.not_isSome_iff_eq_none.mp (Bool.eq_false_iff.mp hsome.symm)
      rw [context.field_of_absent ps _ path₁ hchildren, context.field_of_absent qs _ path₂ hothers]
      exact same_absent (collection.same_build_nil htypes) hvw
    | some children =>
      rw [hchildren] at hsome
      obtain ⟨others, hothers⟩ := Option.isSome_iff_exists.mp hsome.symm
      have hsame := collection.sameChildren_of_same hv hw hconforms hvw hchildren hothers
      have hproper : ∀ c ∈ children, c.2.Proper :=
        fun c hc => hv.of_mem_parts (Collection.mem_parts_of_mem_children hchildren hc)
      have hproper' : ∀ d ∈ others, d.2.Proper :=
        fun d hd => hw.of_mem_parts (Collection.mem_parts_of_mem_children hothers hd)
      rw [context.field_of_children ps _ path₁ hchildren,
        context.field_of_children qs _ path₂ hothers]
      simp only [Walk.bind_apply, Walk.pure_apply, hvalue]
      refine same_collection hps hqs (fun x hx => ?_) htypes hsame hproper hproper'
        (fun c hc d hd hcd path₁ path₂ p₁ p₂ => ?_) path₁ path₂ _ _
      · rw [← hvalue path p₁] at hx
        exact (hr path x (context.mem_of_mem_nestedReplacement hx)).toProper
      · have hmem : (path.step c.1, c.2) ∈ (Nesting.many collection).objects v path := by
          rw [Nesting.objects, hchildren]
          exact List.mem_map_of_mem (f := fun c => (path.step c.1, c.2)) hc
        exact h c.2 d.2 _ held (hproper c hc) (hproper' d hd) hcd
          (Collection.conforms_of_mem_children hconforms hchildren hc) (hobject _ hmem)
          (hheld _ hmem) path₁ path₂ p₁ p₂

end

/-- **Fields that are alike result in the same**, if nothing is drawn for them. -/
theorem sameField_of_alike (hr : ∀ x ∈ r, x.Regular) {p q : Part} (h : p.Alike q)
    (hp : p.WellFormed) (hq : q.WellFormed) : context.SameField r p q := by
  have hpart : ∀ (path : Path), ∀ x ∈ path.partOf r, x.Regular :=
    fun _ => Path.regular_of_mem_partOf hr
  induction h with
  | leaf computed htu =>
    intro v w path hv hw hvw _ hdraws path₁ path₂ p₁ p₂
    cases computed with
    | false => exact hvw
    | true =>
      refine same_leaf htu hp hq hvw (hpart path) (fun hmode hunset hfills => ?_) path₁ path₂ p₁ p₂
      have hnone := hdraws _ List.mem_cons_self
      simpa [draws, generates, Visit.isUnset, Part.type, hmode, hunset, hfills] using hnone
  | @nested ps qs nesting hnames halike ih =>
    have hps := Part.allWellFormed_iff.mp hp
    have hqs := Part.allWellFormed_iff.mp hq
    have htypes := fun name p q hp hq => (halike name p q hp hq).type
    refine sameField_of_object hps hqs hpart (Part.same_objectType hnames htypes) ?_ nesting
    exact sameObject_of_fields hps hqs hnames fun name p q hp hq hwell hwell' =>
      ⟨htypes name p q hp hq, ih name p q hp hq hwell hwell'⟩

/-- Walks over the fields of alike blocks result in the same. -/
theorem sameObject_of_alike (hr : ∀ x ∈ r, x.Regular) {nesting : Nesting}
    {ps qs : List (String × Part)} (h : (Part.nested nesting ps).Alike (.nested nesting qs))
    (hps : ∀ p ∈ ps, p.2.WellFormed) (hqs : ∀ q ∈ qs, q.2.WellFormed) :
    context.SameObject r ps qs := by
  cases h with
  | nested _ hnames halike =>
    refine sameObject_of_fields hps hqs hnames fun name p q hp hq hwell hwell' => ?_
    have hfield := halike name p q hp hq
    exact ⟨hfield.type, sameField_of_alike hr hfield hwell hwell'⟩

end Context

end Synthesis

open Synthesis

/-- **The same inputs give the same value.** Of two schemas that declare the same and two targets
that are the same, in whatever order, the first one of the implied type: what a synthesis of the
first ones draws is all that its generator moves by, it is nothing for a plan, and if it is nothing
then the values of both are the same, whatever their generators. -/
theorem synthesize_same (mode : Mode) {s₁ s₂ : Block} (hs₁ : s₁.isWellFormed = true)
    (hs₂ : s₂.isWellFormed = true) (hs : s₁.same s₂ = true) {t₁ t₂ : Value} (ht₁ : t₁.Proper)
    (ht₂ : t₂.Proper) (ht : t₁.same t₂ = true) (hconforms : Conforms t₁ s₁.impliedType)
    {r : Replacement} (hr : ∀ x ∈ r.value, x.Regular) (g₁ g₂ : Generator) :
    let done₁ := synthesize mode s₁ t₁ r g₁
    let done₂ := synthesize mode s₂ t₂ r g₂
    let drawn := (⟨mode, r.range⟩ : Context).totalDraws r.value (s₁.visits t₁)
    done₁.generator = (g₁.randomStrings drawn).2 ∧
      (mode = .plan → drawn = 0) ∧
      (0 < g₁.stringLength → done₁.generator = g₁ → drawn = 0) ∧
      (drawn = 0 → done₁.value.same done₂.value = true) := by
  intro done₁ done₂ drawn
  have hheld : ∀ name, r.usable.1.bind (·.field? name) =
      (Path.root.step (.attr name)).partOf r.value := by
    intro name
    rw [r.bind_field?_usable, Path.partOf_attr, Path.partOf_root]
  have hgenerator : done₁.generator = (g₁.randomStrings drawn).2 :=
    (Context.accounts_block r.bind_field?_usable s₁ t₁ ⟨g₁, []⟩).generator
  refine ⟨hgenerator, fun hmode => Context.totalDraws_of_plan hmode (s₁.visits t₁),
    fun hlength h => Generator.eq_zero_of_randomStrings hlength (hgenerator.symm.trans h),
    fun hdrawn => ?_⟩
  rw [Block.impliedType_eq] at hconforms
  have hobject : (⟨mode, r.range⟩ : Context).SameObject r.value s₁.parts s₂.parts :=
    Context.sameObject_of_alike hr (Block.alike_parts s₁ s₂ hs₁ hs .single)
      (Part.allWellFormed_iff.mp (Block.wellFormed_parts s₁ hs₁))
      (Part.allWellFormed_iff.mp (Block.wellFormed_parts s₂ hs₂))
  exact hobject t₁ t₂ Path.root r.usable.1 ht₁ ht₂ ht hconforms
    (Context.totalDraws_eq_zero_iff.mp hdrawn) hheld Path.root Path.root ⟨g₁, []⟩ ⟨g₂, []⟩

/-! ### A fleet -/

/-- The schema of a fleet: the groups of its members, the ports that they listen on, and rules. -/
def fleet : Block :=
  .mk [("groups", .plain (.set (.set .string)) false),
      ("ports", .plain (.set (.object [("name", .string), ("open", .bool)])) true)]
    [("rule", .many .set, gateway)]

/-- The same schema, with everything that has no order in another one. -/
def reorderedFleet : Block :=
  .mk [("ports", .plain (.set (.object [("open", .bool), ("name", .string)])) true),
      ("groups", .plain (.set (.set .string)) false)]
    [("rule", .many .set,
      .mk [("serial", .plain .string true), ("address", .plain .string false)] [])]

/-- A fleet whose ports are not known, with two rules. -/
def someFleet : Value :=
  .object [("groups", .set (.set .string) [.set .string [.string "a", .string "b"],
      .set .string [.string "c"]]),
    ("ports", .null (.set (.object [("name", .string), ("open", .bool)]))),
    ("rule", .set (.object [("address", .string), ("serial", .string)])
      [.object [("address", .string "x"), ("serial", .null .string)],
        .object [("address", .string "y"), ("serial", .null .string)]])]

/-- The same fleet in another order. -/
def sameFleet : Value :=
  .object [("rule", .set (.object [("serial", .string), ("address", .string)])
      [.object [("serial", .null .string), ("address", .string "y")],
        .object [("serial", .null .string), ("address", .string "x")]]),
    ("ports", .null (.set (.object [("open", .bool), ("name", .string)]))),
    ("groups", .set (.set .string) [.set .string [.string "c"],
      .set .string [.string "b", .string "a"]])]

/-- Ports, of which two become the same when they are converted, and serial numbers. -/
def somePorts : Replacement :=
  ⟨some (.object [("ports", .list .dynamic
      [.object [("name", .string "p"), ("open", .string "true")],
        .object [("open", .bool true), ("name", .string "p")],
        .object [("name", .string "q"), ("open", .null .bool)]]),
    ("rule", .object [("serial", .string "s")])]), SourceRange.unspecified⟩

/-- A fleet that is read in two orders comes to the same, for nothing is drawn. -/
theorem synthesize_same_fleet :
    fleet.isWellFormed = true ∧ reorderedFleet.isWellFormed = true ∧
      fleet.same reorderedFleet = true ∧ someFleet.Proper ∧ sameFleet.Proper ∧
      someFleet.same sameFleet = true ∧ Conforms someFleet fleet.impliedType ∧
      (∀ x ∈ somePorts.value, x.Regular) ∧
      (⟨.read, somePorts.range⟩ : Context).totalDraws somePorts.value
        (fleet.visits someFleet) = 0 ∧
      (readDataSource fleet someFleet somePorts (Generator.seeded 0)).value.same
        (readDataSource reorderedFleet sameFleet somePorts (Generator.seeded 1)).value =
          true := by
  have hschemas : fleet.same reorderedFleet = true := by decide
  have htargets : someFleet.same sameFleet = true := by decide
  have hproper : someFleet.Proper := ⟨by decide, by decide⟩
  have hproper' : sameFleet.Proper := ⟨by decide, by decide⟩
  have hconforms : Conforms someFleet fleet.impliedType :=
    conforms_of_convert (v := someFleet) rfl (by decide)
  have hr : ∀ x ∈ somePorts.value, x.Regular := by
    rintro _ ⟨⟩
    exact ⟨⟨by decide, by decide⟩, by decide⟩
  have hdrawn : (⟨.read, somePorts.range⟩ : Context).totalDraws somePorts.value
      (fleet.visits someFleet) = 0 := by
    decide
  have h := synthesize_same .read (by decide) (by decide) hschemas hproper hproper' htargets
    hconforms hr (Generator.seeded 0) (Generator.seeded 1)
  exact ⟨by decide, by decide, hschemas, hproper, hproper', htargets, hconforms, hr, hdrawn,
    h.2.2.2 hdrawn⟩

end ProviderMock
