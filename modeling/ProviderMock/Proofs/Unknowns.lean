import ProviderMock.Proofs.Apartness
import ProviderMock.Proofs.Equivalence
import ProviderMock.Proofs.Places

/-!
# Unknowns and conversion

That nothing unknown is made of what is known is `Value.isWhollyKnown_of_convert`; here is the
converse, that nothing unknown is lost. It takes a value whose sets repeat no element, or a type in
which the elements of sets have no dynamic parts.

* **lists, maps and objects** — every element, entry and field is converted and kept, for an object
  has a field for no name but its attributes'.
* **sets** — an element that is left out equals one that is kept, and equal elements are known or
  not alike: `Value.isWhollyKnown_of_distinct`. This takes elements that are proper, and by either
  condition they are.
* **all types** — `Value.isWhollyKnown_eq_of_convert`, and `isWhollyKnown_of_convert_repeatedFlags`
  for what is lost where an element is repeated.
-/

namespace ProviderMock

open Fields (Aligned)

/-! ## Types with static sets -/

namespace Ty

mutual

/-- Whether the elements of no set in a type have dynamic parts. -/
def hasStaticSets : Ty → Bool
  | .set e => e.isStatic
  | .list e => hasStaticSets e
  | .map e => hasStaticSets e
  | .object attributes => attributesHaveStaticSets attributes
  | _ => true
termination_by structural t => t

/-- Whether the elements of no set in the types of attributes have dynamic parts. -/
def attributesHaveStaticSets : List (String × Ty) → Bool
  | [] => true
  | (_, t) :: rest => hasStaticSets t && attributesHaveStaticSets rest
termination_by structural attributes => attributes

end

theorem hasStaticSets_object_iff {attributes : List (String × Ty)} :
    (Ty.object attributes).hasStaticSets = true ↔ ∀ a ∈ attributes, a.2.hasStaticSets = true := by
  rw [hasStaticSets]
  induction attributes with
  | nil => simp [attributesHaveStaticSets]
  | cons a rest ih => simp [attributesHaveStaticSets, ih]

/-- A type without dynamic parts has none in the elements of its sets. -/
theorem hasStaticSets_of_isStatic {t : Ty} (h : t.isStatic = true) : t.hasStaticSets = true := by
  induction t using Ty.induction with
  | string | number | bool => rfl
  | dynamic => cases h
  | list e ih | map e ih => exact ih h
  | set e ih => exact h
  | object attributes ih =>
    rw [isStatic_object_iff] at h
    exact hasStaticSets_object_iff.mpr fun a ha => ih a ha (h a ha)

end Ty

namespace Value

/-! ## Parts -/

/-- A value is known if it is not unknown itself and its parts are known. -/
theorem isWhollyKnown_iff_parts {v : Value} :
    v.isWhollyKnown = true ↔ v.isUnknown = false ∧ ∀ w ∈ v.parts, w.isWhollyKnown = true := by
  simp only [← everywhere_not_isUnknown]
  rw [everywhere_iff]
  simp

/-- What has known elements is known. -/
theorem isWhollyKnown_of_elements {v : Value} {elements : List Value}
    (helements : v.elements? = some elements) (h : ∀ e ∈ elements, e.isWhollyKnown = true) :
    v.isWhollyKnown = true := by
  refine isWhollyKnown_iff_parts.mpr ⟨?_, parts_of_elements helements ▸ h⟩
  cases v <;> first | rfl | cases helements

/-- What has known entries or fields is known. -/
theorem isWhollyKnown_of_named {v : Value} {fields : List (String × Value)}
    (hfields : v.named? = some fields) (h : ∀ f ∈ fields, f.2.isWhollyKnown = true) :
    v.isWhollyKnown = true := by
  refine isWhollyKnown_iff_parts.mpr
    ⟨?_, parts_of_named hfields ▸ List.forall_mem_map.mpr h⟩
  cases v <;> first | rfl | cases hfields

/-- No name occurs twice in a well-formed map or object. -/
theorem distinct_of_named {v : Value} (hv : v.isWellFormed = true) {fields : List (String × Value)}
    (hfields : v.named? = some fields) : Fields.Distinct fields := by
  rw [← everywhere_isOrdered, everywhere_iff] at hv
  exact distinct_of_isOrdered hv.1 hfields

/-! ## Sets -/

/-- Proper values are known if those of them are that a set of them keeps. -/
theorem isWhollyKnown_of_distinct {ws : List Value} (hws : ∀ w ∈ ws, w.Proper)
    (h : ∀ w ∈ distinct ws, w.isWhollyKnown = true) : ∀ w ∈ ws, w.isWhollyKnown = true := by
  intro w hw
  obtain ⟨e, he, rfl | hsame⟩ := holds_distinct hw
  · exact h e he
  · have hproper : e.Proper := hws e ((sublist_distinct ws).subset he)
    rw [← isWhollyKnown_eq_of_same hproper (hws w hw) hsame]
    exact h e he

/-- Whatever sets a value has, what it converts to is proper if nothing is taken over as it is. -/
theorem proper_of_convert_of_isStatic {t : Ty} {v w : Value} (h : v.convert t = .ok w)
    (ht : t.isWellFormed = true) (hstatic : t.isStatic = true) : w.Proper := by
  revert ht hstatic
  apply convert_induction
    (P := fun t _ w => t.isWellFormed = true → t.isStatic = true → w.Proper) h
  case dynamic => exact fun _ _ hstatic => nomatch hstatic
  case null => exact fun _ _ ht _ => ⟨ht, rfl⟩
  case unknown => exact fun _ _ ht _ => ⟨ht, rfl⟩
  case string =>
    intro v w hw _ _
    obtain ⟨s, rfl⟩ := toStringValue_eq_ok hw
    exact ⟨rfl, rfl⟩
  case number =>
    intro v w hw _ _
    obtain ⟨x, rfl⟩ := toNumberValue_eq_ok hw
    exact ⟨rfl, rfl⟩
  case bool =>
    intro v w hw _ _
    obtain ⟨b, rfl⟩ := toBoolValue_eq_ok hw
    exact ⟨rfl, rfl⟩
  case list =>
    intro e v elements ws _ hws ht hstatic
    refine .list ht fun w hw => ?_
    obtain ⟨x, -, hxw⟩ := exists_mem_left hws hw
    exact hxw ht hstatic
  case set =>
    intro e v elements ws _ hws ht hstatic
    refine .setOf ht fun w hw => ?_
    obtain ⟨x, -, hxw⟩ := exists_mem_left hws hw
    exact hxw ht hstatic
  case map =>
    intro e v entries ws _ hws ht hstatic
    refine .mapOf ht fun w hw => ?_
    obtain ⟨x, -, hxw⟩ := hws.exists_left hw
    exact hxw ht hstatic
  case object =>
    intro attributes v fields ws _ _ hws ht hstatic
    obtain ⟨hdistinct, hall⟩ := Ty.isWellFormed_object_iff.mp ht
    refine proper_iff_everywhere.mpr (everywhere_object
      (robust_isProperHere.object ws (hws.distinct hdistinct)) fun w hw => ?_)
    obtain ⟨want, hwant, x, -, hxw⟩ := hws.exists_left hw
    exact proper_iff_everywhere.mp
      (hxw (hall _ hwant) (Ty.isStatic_object_iff.mp hstatic _ hwant))

/-! ## Nothing unknown is lost -/

/-- A value is known if another one is, which it converts to: as long as its sets repeat no element,
or those of the wanted type have static elements. -/
def Revealed (t : Ty) (v w : Value) : Prop :=
  v.isWellFormed = true → t.hasStaticSets = true ∨ v.isRepetitionFree = true →
    w.isWhollyKnown = true → v.isWhollyKnown = true

/-- Whatever converts to a type is known if the result is. -/
def Reveals (t : Ty) : Prop := ∀ v w : Value, v.convert t = .ok w → Revealed t v w

theorem isRepetitionFree_of_mem_parts {v w : Value} (hv : v.isRepetitionFree = true)
    (hw : w ∈ v.parts) : w.isRepetitionFree = true :=
  (everywhere_iff.mp hv).2 w hw

/-- What has elements that convert to known values is known. -/
theorem Reveals.of_elements {e : Ty} (he : Reveals e) {v : Value} {elements ws : List Value}
    (helements : v.elements? = some elements)
    (hws : List.Forall₂ (fun x w => x.convert e = .ok w) elements ws)
    (hv : v.isWellFormed = true) (hsets : e.hasStaticSets = true ∨ v.isRepetitionFree = true)
    (h : ∀ w ∈ ws, w.isWhollyKnown = true) : v.isWhollyKnown = true := by
  refine isWhollyKnown_of_elements helements fun x hx => ?_
  obtain ⟨w, hw, hxw⟩ := exists_mem_right hws hx
  have hparts : x ∈ v.parts := parts_of_elements helements ▸ hx
  exact he x w hxw (isWellFormed_of_mem_elements hv helements x hx)
    (hsets.imp_right (isRepetitionFree_of_mem_parts · hparts)) (h w hw)

theorem Reveals.list {e : Ty} (he : Reveals e) : Reveals (.list e) := by
  intro v w h
  apply convert_list_cases (P := Revealed (.list e)) h
  case null => exact fun _ _ _ _ => rfl
  case unknown => exact fun _ _ _ hw => nomatch hw
  case list =>
    intro elements ws helements hws hv hsets hw
    exact he.of_elements helements hws hv hsets (isWhollyKnown_list_iff.mp hw)

theorem Reveals.set {e : Ty} (ht : e.isWellFormed = true) (he : Reveals e) :
    Reveals (.set e) := by
  intro v w h
  apply convert_set_cases (P := Revealed (.set e)) h
  case null => exact fun _ _ _ _ => rfl
  case unknown => exact fun _ _ _ hw => nomatch hw
  case set =>
    intro elements ws helements hws hv hsets hw
    -- the converted elements are compared, so it is they that have to be proper
    have hproper : ∀ w ∈ ws, w.Proper := by
      intro w hw
      obtain ⟨x, hx, hxw⟩ := exists_mem_left hws hw
      rcases hsets with hstatic | hfree
      · exact proper_of_convert_of_isStatic hxw ht hstatic
      · have hv : v.Proper := proper_iff_isRepetitionFree.mpr ⟨hv, hfree⟩
        exact (hv.of_mem_parts (parts_of_elements helements ▸ hx)).convert ht hxw
    exact he.of_elements helements hws hv (hsets.imp_left Ty.hasStaticSets_of_isStatic)
      (isWhollyKnown_of_distinct hproper (isWhollyKnown_set_iff.mp hw))

theorem Reveals.map {e : Ty} (he : Reveals e) : Reveals (.map e) := by
  intro v w h
  apply convert_map_cases (P := Revealed (.map e)) h
  case null => exact fun _ _ _ _ => rfl
  case unknown => exact fun _ _ _ hw => nomatch hw
  case map =>
    intro entries ws hentries hws hv hsets hw
    have hdistinct : Fields.Distinct entries := distinct_of_named hv hentries
    refine isWhollyKnown_of_named hentries fun x hx => ?_
    obtain ⟨w, hmem, -, hxw⟩ := exists_mem_right hws hx
    have hparts : x.2 ∈ v.parts := parts_of_named hentries ▸ List.mem_map_of_mem hx
    -- no key occurs twice, so no entry takes another's place
    have hkept := (Entries.perm_ofList (hws.distinct hdistinct)).mem_iff.mpr hmem
    exact he x.2 w.2 hxw (isWellFormed_of_mem_named hv hentries x hx)
      (hsets.imp_right (isRepetitionFree_of_mem_parts · hparts))
      (isWhollyKnown_map_iff.mp hw w hkept)

theorem Reveals.object {attributes : List (String × Ty)}
    (hall : ∀ a ∈ attributes, Reveals a.2) : Reveals (.object attributes) := by
  intro v w h
  apply convert_object_cases (P := Revealed (.object attributes)) h
  case null => exact fun _ _ _ _ => rfl
  case unknown => exact fun _ _ _ hw => nomatch hw
  case object =>
    intro fields ws hfields hextra hws hv hsets hw
    have hdistinct : Fields.Distinct fields := distinct_of_named hv hfields
    refine isWhollyKnown_of_named hfields fun f hf => ?_
    -- the field has its attribute, and is what this one's value was converted from
    obtain ⟨⟨name, want⟩, hwant, rfl⟩ := List.mem_map.mp (Fields.has_iff.mp (hextra f hf))
    obtain ⟨w, hmem, -, x, hx, hxw⟩ := exists_mem_right hws hwant
    obtain rfl : f.2 = x := Option.some.inj ((Fields.lookup_of_mem hdistinct hf).symm.trans hx)
    have hparts : f.2 ∈ v.parts := parts_of_named hfields ▸ List.mem_map_of_mem hf
    exact hall _ hwant f.2 w.2 hxw (isWellFormed_of_mem_named hv hfields f hf)
      (hsets.imp (fun h => Ty.hasStaticSets_object_iff.mp h _ hwant)
        (isRepetitionFree_of_mem_parts · hparts))
      (isWhollyKnown_object_iff.mp hw w hmem)

/-- Conversion to a primitive loses nothing: nothing is in what converts to it. -/
theorem reveals_of_retype {t : Ty} {f : Value → Except ConversionError Value}
    (ht : ∀ v : Value, v.convert t = v.retype t f)
    (hf : ∀ v w, f v = .ok w → v.isWhollyKnown = true) : Reveals t := by
  intro v w h
  exact retype_cases (P := Revealed t) (ht v ▸ h) (fun _ _ _ _ => rfl)
    (fun _ _ _ hw => nomatch hw) fun h _ _ _ => hf v w h

/-- No conversion loses anything unknown. -/
theorem reveals {t : Ty} (ht : t.isWellFormed = true) : Reveals t := by
  induction t using Ty.induction with
  | dynamic =>
    intro v w h _ _ hw
    obtain rfl := Except.ok.inj h
    exact hw
  | string =>
    refine reveals_of_retype (fun _ => rfl) fun v w h => ?_
    cases v <;> first | rfl | cases h
  | number =>
    refine reveals_of_retype (fun _ => rfl) fun v w h => ?_
    cases v <;> first | rfl | cases h
  | bool =>
    refine reveals_of_retype (fun _ => rfl) fun v w h => ?_
    cases v <;> first | rfl | cases h
  | list e ih => exact .list (ih ht)
  | set e ih => exact .set ht (ih ht)
  | map e ih => exact .map (ih ht)
  | object attributes ih =>
    exact .object fun a ha => ih a ha ((Ty.isWellFormed_object_iff.mp ht).2 a ha)

/-- **Conversion neither hides nor invents unknowns.** What a known value converts to is known. What
an unknown part is in stays unknown, as long as no set in the value repeats an element, or the
elements of no set in the wanted type have dynamic parts. Nothing that is made by constructors and
operations repeats an element of a set. -/
theorem isWhollyKnown_eq_of_convert {t : Ty} {v w : Value} (ht : t.isWellFormed = true)
    (hv : v.isWellFormed = true) (h : v.convert t = .ok w) :
    (v.isWhollyKnown = true → w.isWhollyKnown = true) ∧
      (t.hasStaticSets = true ∨ v.isRepetitionFree = true →
        w.isWhollyKnown = v.isWhollyKnown) := by
  refine ⟨isWhollyKnown_of_convert h, fun hsets => ?_⟩
  rw [Bool.eq_iff_iff]
  exact ⟨reveals ht v w h hv hsets, isWhollyKnown_of_convert h⟩

/-! ### Labels -/

/-- The type of things with tags, and with hints of any type. -/
def labelled : Ty := .object [("tags", .set .string), ("hints", .set .dynamic)]

/-- Tags of which two are not known yet, as what types whatever. -/
def openLabels : Value :=
  .object [("hints", .set .dynamic [.set .bool [.bool true]]),
    ("tags", .list .dynamic [.unknown .string, .string "a", .unknown .number])]

/-- The two unknown tags become one, and one is left. -/
theorem isWhollyKnown_eq_of_convert_openLabels :
    labelled.isWellFormed = true ∧ openLabels.isWellFormed = true ∧
      openLabels.isRepetitionFree = true ∧ openLabels.isWhollyKnown = false ∧
      ∃ w, openLabels.convert labelled = .ok w ∧
        (w.field? "tags").bind Value.elements? = some [.unknown .string, .string "a"] ∧
        w.isWhollyKnown = false := by
  have hfree : openLabels.isRepetitionFree = true := by decide
  have hopen : openLabels.isWhollyKnown = false := by decide
  obtain ⟨w, hw, htags⟩ : ∃ w, openLabels.convert labelled = .ok w ∧
      (w.field? "tags").bind Value.elements? = some [.unknown .string, .string "a"] :=
    ⟨_, rfl, rfl⟩
  have h := (isWhollyKnown_eq_of_convert (by decide) (by decide) hw).2 (.inr hfree)
  exact ⟨by decide, by decide, hfree, hopen, w, hw, htags, h.trans hopen⟩

/-- Flags of which the first two are written twice, and of the others one is not known yet. -/
def repeatedFlags : Value :=
  .list (.set .bool) [.set .bool [.bool true, .bool true], .set .bool [.bool true, .unknown .bool]]

/-- A set that repeats an element can equal one with an unknown element. It is kept in the place of
that one, and the unknown is lost. -/
theorem isWhollyKnown_of_convert_repeatedFlags :
    repeatedFlags.isWellFormed = true ∧ repeatedFlags.isRepetitionFree = false ∧
      repeatedFlags.isWhollyKnown = false ∧
      ∃ w, repeatedFlags.convert (.set .dynamic) = .ok w ∧ w.isWhollyKnown = true :=
  ⟨by decide, by decide, by decide, _, rfl, rfl⟩

end Value

end ProviderMock
