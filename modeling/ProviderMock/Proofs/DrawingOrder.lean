import ProviderMock.Proofs.Extensionality
import ProviderMock.Proofs.WrittenTypes

/-!
# The order that strings are drawn in

A generator makes an object attribute by attribute and draws its strings on the way. When the
attributes are put in ascending order, as they are when a type is read back, as many strings are
drawn, but they may go to other attributes. They go to the same ones if the attributes that have
strings ascend already; the others may be anywhere between them.

* **types** — `Ty.drawsAscending` says that they ascend, wherever objects are generated.
* **attributes** — `Generator.lookup_generateFields_filter`: attributes without strings make no
  difference to the others.
* **values** — `Generator.same_generate_sorted`: then a type and the type in ascending order
  generate the same.
-/

namespace ProviderMock

open Fields (Aligned)

/-! ## Types -/

namespace Ty

/-- Whether strings are drawn for a type. -/
def isDrawn (t : Ty) : Bool := t.stringLeaves != 0

mutual

/-- Whether the attributes that strings are drawn for ascend, in every object type that objects are
generated of. -/
def drawsAscending : Ty → Bool
  | .object attributes =>
    decide (Entries.Ascending (attributes.filter fun a => a.2.isDrawn)) &&
      attributesDrawAscending attributes
  | _ => true
termination_by structural t => t

/-- Whether the attributes that strings are drawn for ascend in the types of attributes. -/
def attributesDrawAscending : List (String × Ty) → Bool
  | [] => true
  | (_, t) :: rest => t.drawsAscending && attributesDrawAscending rest
termination_by structural ts => ts

end

theorem drawsAscending_object_iff {attributes : List (String × Ty)} :
    (Ty.object attributes).drawsAscending = true ↔
      Entries.Ascending (attributes.filter fun a => a.2.isDrawn) ∧
        ∀ a ∈ attributes, a.2.drawsAscending = true := by
  have hall : attributesDrawAscending attributes = true ↔
      ∀ a ∈ attributes, a.2.drawsAscending = true := by
    induction attributes with
    | nil => simp [attributesDrawAscending]
    | cons a rest ih => simp [attributesDrawAscending, ih]
  rw [drawsAscending, Bool.and_eq_true, decide_eq_true_iff, hall]

/-- The order of attributes makes no difference to how many strings there are. -/
theorem attributeStringLeaves_of_perm {attributes others : List (String × Ty)}
    (h : attributes.Perm others) :
    attributeStringLeaves attributes = attributeStringLeaves others := by
  induction h with
  | nil => rfl
  | cons a _ ih => simp [attributeStringLeaves, ih]
  | swap a b rest =>
    simp only [attributeStringLeaves]
    omega
  | trans _ _ ih ih' => exact ih.trans ih'

/-- In ascending order there are as many strings to draw. -/
theorem stringLeaves_sorted {t : Ty} (ht : t.isWellFormed = true) :
    t.sorted.stringLeaves = t.stringLeaves := by
  induction t using Ty.induction with
  | string | number | bool | dynamic | list _ _ | set _ _ | map _ _ => rfl
  | object attributes ih =>
    obtain ⟨hdistinct, hall⟩ := isWellFormed_object_iff.mp ht
    have hleaves : ∀ rest ⊆ attributes,
        attributeStringLeaves (sortedAttributes rest) = attributeStringLeaves rest := by
      intro rest hrest
      induction rest with
      | nil => rfl
      | cons a rest ih' =>
        obtain ⟨ha, hrest⟩ := List.cons_subset.mp hrest
        rw [sortedAttributes, attributeStringLeaves, ih a ha (hall a ha), ih' hrest,
          attributeStringLeaves]
    have hperm := Entries.perm_ofList (distinct_sortedAttributes hdistinct)
    exact (attributeStringLeaves_of_perm hperm).trans (hleaves attributes (List.Subset.refl _))

theorem isDrawn_sorted {t : Ty} (ht : t.isWellFormed = true) : t.sorted.isDrawn = t.isDrawn := by
  rw [isDrawn, isDrawn, stringLeaves_sorted ht]

/-- The attributes that strings are drawn for are in ascending order what they were. -/
theorem filter_sorted {attributes : List (String × Ty)} (hdistinct : Fields.Distinct attributes)
    (hall : ∀ a ∈ attributes, a.2.isWellFormed = true)
    (hascending : Entries.Ascending (attributes.filter fun a => a.2.isDrawn)) :
    (Entries.ofList (sortedAttributes attributes)).filter (fun a => a.2.isDrawn) =
      sortedAttributes (attributes.filter fun a => a.2.isDrawn) := by
  have hfilter : (sortedAttributes attributes).filter (fun a => a.2.isDrawn) =
      sortedAttributes (attributes.filter fun a => a.2.isDrawn) := by
    simp only [sortedAttributes_eq_mapValues, Fields.mapValues, List.filter_map]
    exact congrArg _ (List.filter_congr fun a ha => isDrawn_sorted (hall a ha))
  rw [← hfilter]
  refine Entries.filter_ofList (distinct_sortedAttributes hdistinct) ?_
  rw [hfilter, sortedAttributes_eq_mapValues, Entries.Ascending, Fields.names_mapValues]
  exact hascending

end Ty

/-! ## Generated values -/

namespace Generator

/-- Nothing is drawn for a type without strings. -/
theorem generate_of_not_isDrawn {t : Ty} (ht : t.isDrawn = false) (g : Generator) :
    (g.generate t).2 = g := by
  have hnone : t.stringLeaves = 0 := by simpa [Ty.isDrawn] using ht
  have hdraws := congrArg Prod.snd (generate_draws t g)
  rw [hnone] at hdraws
  exact hdraws

/-- A type in ascending order moves a generator as far as the type. -/
theorem generator_sorted {t : Ty} (ht : t.isWellFormed = true) (g : Generator) :
    (g.generate t.sorted).2 = (g.generate t).2 := by
  have hsorted := congrArg Prod.snd (generate_draws t.sorted g)
  rw [Ty.stringLeaves_sorted ht, ← generate_draws t g] at hsorted
  exact hsorted

/-- **Attributes without strings make no difference to the others.** -/
theorem lookup_generateFields_filter {attributes : List (String × Ty)} {name : String} {t : Ty}
    (h : attributes.lookup name = some t) (ht : t.isDrawn = true) (g : Generator) :
    (g.generateFields attributes).1.lookup name =
      (g.generateFields (attributes.filter fun a => a.2.isDrawn)).1.lookup name := by
  induction attributes generalizing g with
  | nil => cases h
  | cons a rest ih =>
    obtain ⟨other, u⟩ := a
    rw [Fields.lookup_cons] at h
    cases hu : u.isDrawn with
    | true =>
      rw [List.filter_cons_of_pos (by simpa using hu), generateFields, generateFields, Fields.lookup_cons,
        Fields.lookup_cons]
      by_cases hname : name = other
      · rw [if_pos hname, if_pos hname]
      · rw [if_neg hname] at h ⊢
        rw [if_neg hname]
        exact ih h _
    | false =>
      have hne : name ≠ other := by
        rintro rfl
        rw [if_pos rfl] at h
        cases (Option.some.inj h ▸ hu).symm.trans ht
      rw [if_neg hne] at h
      rw [List.filter_cons_of_neg (by simp [hu]), generateFields, Fields.lookup_cons, if_neg hne,
        generate_of_not_isDrawn hu]
      exact ih h g

/-- Attributes generate the same one by one if their types in ascending order do. -/
theorem aligned_generateFields_sorted {attributes : List (String × Ty)}
    (hall : ∀ a ∈ attributes, a.2.isWellFormed = true)
    (h : ∀ a ∈ attributes, ∀ g : Generator,
      (g.generate a.2).1.same (g.generate a.2.sorted).1 = true) (g : Generator) :
    Aligned (fun _ v w => v.same w = true) (g.generateFields attributes).1
      (g.generateFields (Ty.sortedAttributes attributes)).1 := by
  induction attributes generalizing g with
  | nil => exact .nil
  | cons a rest ih =>
    obtain ⟨name, t⟩ := a
    rw [List.forall_mem_cons] at hall h
    rw [Ty.sortedAttributes, generateFields, generateFields, generator_sorted hall.1]
    exact .cons ⟨rfl, h.1 g⟩ (ih hall.2 h.2 _)

/-- **A type and the type in ascending order generate the same,** if the attributes that strings are
drawn for ascend. -/
theorem same_generate_sorted {t : Ty} (ht : t.isWellFormed = true)
    (hascending : t.drawsAscending = true) (g : Generator) :
    (g.generate t).1.same (g.generate t.sorted).1 = true := by
  induction t using Ty.induction generalizing g with
  | string => exact Value.same_string_iff.mpr rfl
  | number | bool | dynamic => rfl
  | list e _ | set e _ | map e _ => exact same_generate (Ty.same_sorted_right ht) ht rfl g g
  | object attributes ih =>
    obtain ⟨hdistinct, hall⟩ := Ty.isWellFormed_object_iff.mp ht
    obtain ⟨hfilter, hdraws⟩ := Ty.drawsAscending_object_iff.mp hascending
    have hgenerate : ∀ a ∈ attributes, ∀ g : Generator,
        (g.generate a.2).1.same (g.generate a.2.sorted).1 = true :=
      fun a ha => ih a ha (hall a ha) (hdraws a ha)
    have hpicked : ∀ {P : String × Ty → Prop}, (∀ a ∈ attributes, P a) →
        ∀ a ∈ attributes.filter fun a => a.2.isDrawn, P a :=
      fun h a ha => h a (List.mem_of_mem_filter ha)
    have hmade := aligned_generateFields attributes g
    have hmade' := aligned_generateFields (Entries.ofList (Ty.sortedAttributes attributes)) g
    refine (Value.same_object_iff_of_distinct (hmade.distinct hdistinct)).mpr
      ⟨?_, fun name v w hv hw => ?_⟩
    · rw [← hmade.names_eq, ← hmade'.names_eq]
      exact (Ty.perm_names_sorted hdistinct).symm
    · obtain ⟨t, ht, g₁, hg₁⟩ := hmade.lookup hv
      obtain ⟨u, hu, g₂, hg₂⟩ := hmade'.lookup hw
      obtain rfl : t.sorted = u :=
        Option.some.inj ((ht ▸ Ty.lookup_sorted hdistinct name).symm.trans hu)
      have hwell := hall _ (Fields.mem_of_lookup ht)
      cases hdrawn : t.isDrawn with
      | false =>
        rw [hg₁, hg₂]
        exact same_generate (Ty.same_sorted_right hwell) hwell (by simpa [Ty.isDrawn] using hdrawn)
          g₁ g₂
      | true =>
        -- both are generated among the attributes that strings are drawn for
        rw [lookup_generateFields_filter ht hdrawn] at hv
        rw [lookup_generateFields_filter hu ((Ty.isDrawn_sorted hwell).trans hdrawn),
          Ty.filter_sorted hdistinct hall hfilter] at hw
        have haligned := aligned_generateFields_sorted (hpicked hall) (hpicked hgenerate) g
        obtain ⟨v', hv', hsame⟩ := haligned.lookup hw
        obtain rfl := Option.some.inj (hv.symm.trans hv')
        exact hsame

/-- A number may come before all strings, whatever its name. -/
example : (Ty.object [("port", .number), ("host", .string), ("scheme", .string)]).drawsAscending =
    true := by
  decide

/-- Strings are drawn in another order if their names do not ascend. -/
example : (Ty.object [("port", .string), ("host", .string)]).drawsAscending = false := by
  decide

end Generator

end ProviderMock
