import ProviderMock.Proofs.Comparison
import ProviderMock.Proofs.Completion
import ProviderMock.Proofs.Generation
import ProviderMock.Proofs.Sets
import ProviderMock.Proofs.WellFormed

/-!
# What holds all through a value

A test of values is passed *everywhere* in a value if the value passes it and so does all that is in
it. That a value is known, that it is well-formed, that all its numbers are finite and that no set
in it has two equal elements are such properties.

A test is *robust* if it is passed by whatever is built at a well-formed type, as soon as the parts
pass it. What holds everywhere for a robust test is never lost:

* **conversion and generation** — `Robust.convert` and `Robust.generate`.
* **synthesis** — `Robust.synthesize`: what holds all through a target and a replacement holds all
  through the result.
-/

namespace ProviderMock

open Fields (Aligned)

/-! ## Numbers -/

/-- A finite double is a number. -/
theorem Double.isNaN_of_isFinite {x : Double} (h : x.isFinite = true) : x.isNaN = false := by
  simp only [isFinite, isNaN, decide_eq_true_iff, decide_eq_false_iff_not] at h ⊢
  omega

namespace Value

/-! ## Tests -/

mutual

/-- Whether a value and all that is in it pass a test. -/
def everywhere (test : Value → Bool) : Value → Bool
  | .null t => test (.null t)
  | .unknown t => test (.unknown t)
  | .string s => test (.string s)
  | .number x => test (.number x)
  | .bool b => test (.bool b)
  | .list t elements => test (.list t elements) && everywhereIn test elements
  | .set t elements => test (.set t elements) && everywhereIn test elements
  | .map t entries => test (.map t entries) && everywhereUnder test entries
  | .object fields => test (.object fields) && everywhereUnder test fields
termination_by structural v => v

/-- Whether values and all that is in them pass a test. -/
def everywhereIn (test : Value → Bool) : List Value → Bool
  | [] => true
  | v :: rest => everywhere test v && everywhereIn test rest
termination_by structural vs => vs

/-- Whether the values of fields and all that is in them pass a test. -/
def everywhereUnder (test : Value → Bool) : List (String × Value) → Bool
  | [] => true
  | (_, v) :: rest => everywhere test v && everywhereUnder test rest
termination_by structural fields => fields

end

variable {test : Value → Bool}

theorem everywhereIn_iff {values : List Value} :
    everywhereIn test values = true ↔ ∀ v ∈ values, v.everywhere test = true := by
  induction values with
  | nil => simp [everywhereIn]
  | cons v rest ih => simp [everywhereIn, ih]

theorem everywhereUnder_iff {fields : List (String × Value)} :
    everywhereUnder test fields = true ↔ ∀ v ∈ fields.map Prod.snd, v.everywhere test = true := by
  induction fields with
  | nil => simp [everywhereUnder]
  | cons f rest ih => simp [everywhereUnder, ih]

/-- A test is passed everywhere in a value if it is passed by the value, and everywhere in its
parts. -/
theorem everywhere_iff {v : Value} :
    v.everywhere test = true ↔ test v = true ∧ ∀ w ∈ v.parts, w.everywhere test = true := by
  cases v with
  | list t elements | set t elements => rw [everywhere, Bool.and_eq_true, everywhereIn_iff, parts]
  | map t entries | object entries => rw [everywhere, Bool.and_eq_true, everywhereUnder_iff, parts]
  | _ => simp [everywhere, parts]

/-- What is held of elements is passed everywhere in a set of them. -/
theorem everywhere_setOf {t : Ty} {elements : List Value} (h : test (setOf t elements) = true)
    (helements : ∀ e ∈ elements, e.everywhere test = true) :
    (setOf t elements).everywhere test = true :=
  everywhere_iff.mpr ⟨h, fun e he => helements e ((sublist_distinct elements).subset he)⟩

/-- What is held of entries is passed everywhere in a map of them. -/
theorem everywhere_mapOf {t : Ty} {entries : List (String × Value)}
    (h : test (mapOf t entries) = true) (hentries : ∀ e ∈ entries, e.2.everywhere test = true) :
    (mapOf t entries).everywhere test = true := by
  refine everywhere_iff.mpr ⟨h, fun w hw => ?_⟩
  obtain ⟨entry, hentry, rfl⟩ := List.mem_map.mp hw
  exact hentries entry (Entries.mem_of_mem_ofList hentry)

/-- What is held of fields is passed everywhere in an object of them. -/
theorem everywhere_object {fields : List (String × Value)} (h : test (.object fields) = true)
    (hfields : ∀ f ∈ fields, f.2.everywhere test = true) :
    (Value.object fields).everywhere test = true := by
  refine everywhere_iff.mpr ⟨h, fun w hw => ?_⟩
  obtain ⟨field, hfield, rfl⟩ := List.mem_map.mp hw
  exact hfields field hfield

/-- A field of a value passes everywhere what the value passes. -/
theorem everywhere_of_field {v : Value} (h : v.everywhere test = true) {name : String} {w : Value}
    (hw : v.field? name = some w) : w.everywhere test = true := by
  cases v with
  | object fields =>
    exact (everywhere_iff.mp h).2 w (List.mem_map_of_mem (Fields.mem_of_lookup hw))
  | _ => cases hw

end Value

namespace Value

/-! ## Tests -/

/-- Whether the names of a value are as objects and maps keep them, and its own types are
well-formed. -/
def isOrdered : Value → Bool
  | .null t => t.isWellFormed
  | .unknown t => t.isWellFormed
  | .list t _ => t.isWellFormed
  | .set t _ => t.isWellFormed
  | .map t entries => t.isWellFormed && decide (Entries.Ascending entries)
  | .object fields => decide (Fields.Distinct fields)
  | _ => true

/-- Whether a value is no set with equal elements. -/
def holdsApart : Value → Bool
  | .set _ elements => decide (elements.Pairwise fun v w => v.same w = false)
  | _ => true

/-- Whether a value is no number that is not finite. -/
def isFinite : Value → Bool
  | .number x => x.isFinite
  | _ => true

/-- Whether a value is not not-a-number. -/
def isComparable : Value → Bool
  | .number x => !x.isNaN
  | _ => true

/-- Whether the elements of every set in a value are apart. -/
def isCollapsed (v : Value) : Bool := v.everywhere holdsApart

/-- Whether all numbers in a value are finite. -/
def hasFiniteNumbers (v : Value) : Bool := v.everywhere isFinite

/-- Whether there is no not-a-number in a value. -/
def hasNoNaN (v : Value) : Bool := v.everywhere isComparable

/-- A value is well-formed if its names are in order everywhere. -/
theorem everywhere_isOrdered (v : Value) : v.everywhere isOrdered = v.isWellFormed := by
  induction v using Value.induction with
  | list t elements ih | set t elements ih =>
    rw [Bool.eq_iff_iff, everywhere_iff, isWellFormed, Bool.and_eq_true, areWellFormed_iff, parts,
      isOrdered]
    exact and_congr_right fun _ => forall₂_congr fun w hw => by rw [ih w hw]
  | map t entries ih =>
    rw [Bool.eq_iff_iff, everywhere_iff, isWellFormed, Bool.and_eq_true, fieldsWellFormed_iff,
      parts, isOrdered, List.forall_mem_map]
    exact and_congr_right fun _ => forall₂_congr fun entry hentry => by rw [ih entry hentry]
  | object fields ih =>
    rw [Bool.eq_iff_iff, everywhere_iff, isWellFormed, Bool.and_eq_true, fieldsWellFormed_iff,
      parts, isOrdered, List.forall_mem_map]
    exact and_congr_right fun _ => forall₂_congr fun field hfield => by rw [ih field hfield]
  | _ => rfl

/-- A value is known if it is unknown nowhere. -/
theorem everywhere_not_isUnknown (v : Value) :
    v.everywhere (fun w => !w.isUnknown) = v.isWhollyKnown := by
  induction v using Value.induction with
  | list t elements ih =>
    rw [Bool.eq_iff_iff, everywhere_iff, isWhollyKnown_list_iff, parts]
    exact (and_iff_right rfl).trans (forall₂_congr fun w hw => by rw [ih w hw])
  | set t elements ih =>
    rw [Bool.eq_iff_iff, everywhere_iff, isWhollyKnown_set_iff, parts]
    exact (and_iff_right rfl).trans (forall₂_congr fun w hw => by rw [ih w hw])
  | map t entries ih =>
    rw [Bool.eq_iff_iff, everywhere_iff, isWhollyKnown_map_iff, parts, List.forall_mem_map]
    exact (and_iff_right rfl).trans (forall₂_congr fun entry hentry => by rw [ih entry hentry])
  | object fields ih =>
    rw [Bool.eq_iff_iff, everywhere_iff, isWhollyKnown_object_iff, parts, List.forall_mem_map]
    exact (and_iff_right rfl).trans (forall₂_congr fun field hfield => by rw [ih field hfield])
  | _ => rfl

/-- A test that is passed by what is built at well-formed types. Whether a value is unknown may
matter, but not at what type it is. -/
structure Robust (test : Value → Bool) : Prop where
  null (t : Ty) (ht : t.isWellFormed = true) : test (.null t) = true
  unknown (t u : Ty) (ht : test (.unknown t) = true) (hu : u.isWellFormed = true) :
    test (.unknown u) = true
  string (s : String) : test (.string s) = true
  number (x : Double) (hx : x.isFinite = true) : test (.number x) = true
  bool (b : Bool) : test (.bool b) = true
  list (t : Ty) (elements : List Value) (ht : t.isWellFormed = true) :
    test (.list t elements) = true
  set (t : Ty) (elements : List Value) (ht : t.isWellFormed = true) :
    test (setOf t elements) = true
  map (t : Ty) (entries : List (String × Value)) (ht : t.isWellFormed = true) :
    test (mapOf t entries) = true
  object (fields : List (String × Value)) (hfields : Fields.Distinct fields) :
    test (.object fields) = true

theorem robust_isOrdered : Robust isOrdered where
  null _ ht := ht
  unknown _ _ _ hu := hu
  string _ := rfl
  number _ _ := rfl
  bool _ := rfl
  list _ _ ht := ht
  set _ _ ht := ht
  map t entries ht := by
    have hascending := Entries.ascending_ofList entries
    simp [isOrdered, mapOf, ht, hascending]
  object _ hfields := decide_eq_true hfields

theorem robust_holdsApart : Robust holdsApart where
  null _ _ := rfl
  unknown _ _ _ _ := rfl
  string _ := rfl
  number _ _ := rfl
  bool _ := rfl
  list _ _ _ := rfl
  set _ elements _ := decide_eq_true (pairwise_distinct elements)
  map _ _ _ := rfl
  object _ _ := rfl

theorem robust_isFinite : Robust isFinite where
  null _ _ := rfl
  unknown _ _ _ _ := rfl
  string _ := rfl
  number _ hx := hx
  bool _ := rfl
  list _ _ _ := rfl
  set _ _ _ := rfl
  map _ _ _ := rfl
  object _ _ := rfl

theorem robust_isComparable : Robust isComparable where
  null _ _ := rfl
  unknown _ _ _ _ := rfl
  string _ := rfl
  number x hx := by simp [isComparable, Double.isNaN_of_isFinite hx]
  bool _ := rfl
  list _ _ _ := rfl
  set _ _ _ := rfl
  map _ _ _ := rfl
  object _ _ := rfl

theorem robust_not_isUnknown : Robust (fun v => !v.isUnknown) where
  null _ _ := rfl
  unknown _ _ ht _ := ht
  string _ := rfl
  number _ _ := rfl
  bool _ := rfl
  list _ _ _ := rfl
  set _ _ _ := rfl
  map _ _ _ := rfl
  object _ _ := rfl

/-! ## What is never lost -/

variable {test : Value → Bool}

/-- A number is one already or is read from a string, and then it is finite. -/
theorem finite_of_toNumberValue {v : Value} {x : Double} (h : v.toNumberValue = .ok (.number x)) :
    v = .number x ∨ x.isFinite = true := by
  unfold toNumberValue at h
  split at h
  · exact .inl (congrArg Value.number (Value.number.inj (Except.ok.inj h)))
  · split at h
    · split at h
      · rename_i y _ hy
        rw [← Value.number.inj (Except.ok.inj h)]
        exact .inr hy
      · cases h
    · cases h
  · cases h

/-- What a value converts to passes everywhere what the value does. -/
theorem Robust.convert (htest : Robust test) {t : Ty} {v w : Value} (h : v.convert t = .ok w)
    (ht : t.isWellFormed = true) (hv : v.everywhere test = true) : w.everywhere test = true := by
  revert ht hv
  apply convert_induction
    (P := fun t v w => t.isWellFormed = true → v.everywhere test = true →
      w.everywhere test = true) h
  case dynamic => exact fun v _ hv => hv
  case null => exact fun want t ht _ => htest.null want ht
  case unknown => exact fun want t ht hv => htest.unknown t want hv ht
  case string =>
    intro v w hw _ _
    obtain ⟨s, rfl⟩ := toStringValue_eq_ok hw
    exact htest.string s
  case number =>
    intro v w hw _ hv
    obtain ⟨x, rfl⟩ := toNumberValue_eq_ok hw
    rcases finite_of_toNumberValue hw with rfl | hx
    · exact hv
    · exact htest.number x hx
  case bool =>
    intro v w hw _ _
    obtain ⟨b, rfl⟩ := toBoolValue_eq_ok hw
    exact htest.bool b
  case list =>
    intro e v elements ws helements hws ht hv
    refine everywhere_iff.mpr ⟨htest.list e ws ht, fun w hw => ?_⟩
    obtain ⟨x, hx, hxw⟩ := exists_mem_left hws hw
    exact hxw ht ((everywhere_iff.mp hv).2 x (parts_of_elements helements ▸ hx))
  case set =>
    intro e v elements ws helements hws ht hv
    refine everywhere_setOf (htest.set e ws ht) fun w hw => ?_
    obtain ⟨x, hx, hxw⟩ := exists_mem_left hws hw
    exact hxw ht ((everywhere_iff.mp hv).2 x (parts_of_elements helements ▸ hx))
  case map =>
    intro e v entries ws hentries hws ht hv
    refine everywhere_mapOf (htest.map e ws ht) fun w hw => ?_
    obtain ⟨x, hx, hxw⟩ := hws.exists_left hw
    exact hxw ht ((everywhere_iff.mp hv).2 x (parts_of_named hentries ▸ List.mem_map_of_mem hx))
  case object =>
    intro attributes v fields ws hfields _ hws ht hv
    obtain ⟨hdistinct, hall⟩ := Ty.isWellFormed_object_iff.mp ht
    refine everywhere_object (htest.object ws (hws.distinct hdistinct)) fun w hw => ?_
    obtain ⟨want, hwant, x, hx, hxw⟩ := hws.exists_left hw
    exact hxw (hall _ hwant) ((everywhere_iff.mp hv).2 x
      (parts_of_named hfields ▸ List.mem_map_of_mem (Fields.mem_of_lookup hx)))

/-- What is generated passes a robust test everywhere. -/
theorem Robust.generate (htest : Robust test) {t : Ty} (ht : t.isWellFormed = true)
    (g : Generator) : (g.generate t).1.everywhere test = true := by
  induction t using Ty.induction generalizing g with
  | string => exact htest.string _
  | number => exact htest.number _ (by decide)
  | bool => exact htest.bool false
  | dynamic => exact htest.null .dynamic ht
  | list e _ =>
    exact everywhere_iff.mpr ⟨htest.list e [] ht, fun _ hw => absurd hw List.not_mem_nil⟩
  | set e _ => exact everywhere_setOf (htest.set e [] ht) fun _ hw => absurd hw List.not_mem_nil
  | map e _ => exact everywhere_mapOf (htest.map e [] ht) fun _ hw => absurd hw List.not_mem_nil
  | object attributes ih =>
    obtain ⟨hdistinct, hall⟩ := Ty.isWellFormed_object_iff.mp ht
    have hmade := Generator.aligned_generateFields attributes g
    refine everywhere_object (htest.object _ (hmade.distinct hdistinct)) fun f hf => ?_
    obtain ⟨t, hmem, g', hg'⟩ := hmade.exists_left hf
    rw [hg']
    exact ih _ hmem (hall _ hmem) g'

/-- A field of a target passes everywhere what the target does. -/
theorem Robust.fieldOr (htest : Robust test) {target : Value} (h : target.everywhere test = true)
    (name : String) {t : Ty} (ht : t.isWellFormed = true) :
    (target.fieldOr name t).everywhere test = true := by
  cases target with
  | object fields =>
    cases hlookup : fields.lookup name with
    | none =>
      rw [Value.fieldOr, hlookup]
      exact htest.null t ht
    | some w =>
      rw [Value.fieldOr, hlookup]
      exact everywhere_of_field h hlookup
  | unknown u => exact htest.unknown u t h ht
  | _ => exact htest.null t ht

end Value

namespace Synthesis

open Value (Robust everywhere_iff everywhere_setOf everywhere_mapOf)

variable {mode : Mode} {test : Value → Bool}

/-- Leaves may be filled with what passes a test everywhere, where the declared type is
well-formed. -/
def Passing (test : Value → Bool) (t : Ty) (v : Value) : Prop :=
  t.isWellFormed = true → v.everywhere test = true

/-- Completing along the parts of an object keeps what holds everywhere if completing along each
part does. -/
theorem CompletesObject.everywhere_of_parts (htest : Robust test) {parts : List (String × Part)}
    (hparts : ∀ p ∈ parts, p.2.WellFormed)
    (ih : ∀ p ∈ parts, ∀ target v, Completes mode (Passing test) p.2 target v →
      target.everywhere test = true → v.everywhere test = true)
    {target v : Value} (h : CompletesObject mode (Passing test) parts target v)
    (htarget : target.everywhere test = true) : v.everywhere test = true := by
  obtain ⟨fields, hfields, rfl⟩ := h
  refine Value.everywhere_object (htest.object _ (Fields.distinct_ofList fields)) fun f hf => ?_
  obtain ⟨part, hpart, hcompletes⟩ :=
    (completesFields_iff.mp hfields).exists_left (Fields.mem_of_mem_ofList hf)
  exact ih _ hpart _ _ hcompletes (htest.fieldOr htarget f.1 (hparts _ hpart).type)

/-- **Completion keeps what holds everywhere.** -/
theorem Completes.everywhere (htest : Robust test) {part : Part} (hpart : part.WellFormed)
    {target v : Value} (h : Completes mode (Passing test) part target v)
    (htarget : target.everywhere test = true) : v.everywhere test = true := by
  induction part using Part.induction generalizing target v with
  | leaf t computed =>
    rw [Completes] at h
    split at h
    · exact h hpart
    · rw [h]
      exact htarget
  | nested nesting parts ih =>
    have hparts := Part.allWellFormed_iff.mp hpart
    have htype : (Part.objectType parts).isWellFormed = true := by
      have hsingle : (Part.nested .single parts).WellFormed := hpart
      exact hsingle.type
    have hobject : ∀ target v, CompletesObject mode (Passing test) parts target v →
        target.everywhere test = true → v.everywhere test = true :=
      fun target v h htarget => h.everywhere_of_parts htest hparts
        (fun p hp target v h htarget => ih p hp (hparts p hp) h htarget) htarget
    cases nesting with
    | single => exact hobject target v h htarget
    | many collection =>
      cases hchildren : collection.children? target with
      | none =>
        rw [h.absent hchildren]
        split
        · cases collection with
          | list =>
            exact everywhere_iff.mpr ⟨htest.list _ [] htype, fun _ hw => absurd hw List.not_mem_nil⟩
          | set =>
            exact everywhere_setOf (htest.set _ [] htype) fun _ hw => absurd hw List.not_mem_nil
          | map =>
            exact everywhere_mapOf (htest.map _ [] htype) fun _ hw => absurd hw List.not_mem_nil
        · exact htarget
      | some children =>
        cases collection with
        | list =>
          obtain ⟨elements, helements, -⟩ := Option.map_eq_some_iff.mp hchildren
          obtain ⟨vs, hvs, rfl⟩ := h.list helements
          refine everywhere_iff.mpr ⟨htest.list _ vs htype, fun w hw => ?_⟩
          obtain ⟨e, he, hew⟩ := exists_mem_left hvs hw
          rw [← Value.parts_of_elements helements] at he
          exact hobject e w hew ((everywhere_iff.mp htarget).2 e he)
        | set =>
          obtain ⟨elements, helements, -⟩ := Option.map_eq_some_iff.mp hchildren
          obtain ⟨vs, hvs, rfl⟩ := h.set helements
          refine everywhere_setOf (htest.set _ vs htype) fun w hw => ?_
          obtain ⟨e, he, hew⟩ := exists_mem_left hvs hw
          rw [← Value.parts_of_elements helements] at he
          exact hobject e w hew ((everywhere_iff.mp htarget).2 e he)
        | map =>
          obtain ⟨entries, hentries, -⟩ := Option.map_eq_some_iff.mp hchildren
          obtain ⟨vs, hvs, rfl⟩ := h.map hentries
          refine everywhere_mapOf (htest.map _ vs htype) fun w hw => ?_
          obtain ⟨e, he, hew⟩ := hvs.exists_left hw
          have hmem : e ∈ target.parts := by
            rw [Value.parts_of_named hentries]
            exact List.mem_map_of_mem he
          exact hobject e w.2 hew ((everywhere_iff.mp htarget).2 e hmem)

/-- What an unset leaf is filled with passes everywhere what the replacement does, if unknown values
do where there is a plan. -/
theorem Context.passing_leaf (context : Context) (htest : Robust test)
    (hplan : context.mode = .plan → ∀ t, t.isWellFormed = true → test (.unknown t) = true)
    {t : Ty} {target : Value} (h : context.mode.isUnset target = true) {r : Option Value}
    (hr : ∀ x ∈ r, x.everywhere test = true) (path : Path) (p : Progress) :
    Passing test t (context.leaf t target r path p).1 := by
  intro ht
  rcases context.leaf_cases h r path p with ⟨x, hx, -, hconvert⟩ | ⟨hmode, hunknown⟩ | ⟨-, g, hg⟩
  · exact htest.convert hconvert ht (hr x hx)
  · rw [hunknown]
    exact hplan hmode t ht
  · rw [hg]
    exact htest.generate ht g

/-- What holds all through a target and a replacement holds all through an object that a walk makes
of them. -/
theorem Context.everywhere_object (context : Context) (htest : Robust test)
    (hplan : context.mode = .plan → ∀ t, t.isWellFormed = true → test (.unknown t) = true)
    {parts : List (String × Part)} (hparts : ∀ p ∈ parts, p.2.WellFormed) {target : Value}
    (htarget : target.everywhere test = true) {r : Option Value}
    (hr : ∀ x ∈ r, x.everywhere test = true) (path : Path) (p : Progress) :
    (context.object parts target r path p).1.everywhere test = true := by
  have hQ : ∀ (x : Value) name y, x.everywhere test = true → x.field? name = some y →
      y.everywhere test = true := fun x name y hx hy => Value.everywhere_of_field hx hy
  have hcompletes : CompletesObject context.mode (Passing test) parts target
      (context.object parts target r path p).1 :=
    completes_object context hQ
      (fun t target r path p hunset hr => context.passing_leaf htest hplan hunset hr path p)
      parts target hr path p
  exact hcompletes.everywhere_of_parts htest hparts
    (fun p hp _ _ h htarget => h.everywhere htest (hparts p hp) htarget) htarget

/-- **What holds all through a target and a replacement holds all through the result.** -/
theorem everywhere_synthesize (htest : Robust test)
    (hplan : mode = .plan → ∀ t, t.isWellFormed = true → test (.unknown t) = true)
    {schema : Block} (hschema : schema.isWellFormed = true) {target : Value}
    (htarget : target.everywhere test = true) {r : Replacement}
    (hr : ∀ x ∈ r.value, x.everywhere test = true) (g : Generator) :
    (synthesize mode schema target r g).value.everywhere test = true :=
  (⟨mode, r.range⟩ : Context).everywhere_object htest hplan
    (Part.allWellFormed_iff.mp (Block.wellFormed_parts schema hschema)) htarget
    (fun x hx => hr x (Replacement.mem_of_mem_usable hx)) Path.root ⟨g, []⟩

end Synthesis

end ProviderMock
