import ProviderMock.Proofs.Sameness

/-!
# Sameness as a partial equivalence

Sameness is symmetric and transitive on proper values, and relates to itself just what holds no
not-a-number. Values that are the same differ neither in type nor in what is known of them.

* **diagonal** — `Value.Proper.same_self_iff`: what is the same as itself is free of not-a-number.
* **what the same values share** — `Value.same_ty_of_same` and `Value.isWhollyKnown_eq_of_same`.
* **sets** — `Value.same_set_iff_of_proper`: that one set is as long as another and contained in it
  means that each is contained in the other.
* **together** — `Value.same_partialEquivalence`.
-/

namespace ProviderMock

namespace Value

/-! ## The diagonal -/

/-- What is the same as itself holds no not-a-number. -/
theorem Proper.hasNoNaN_of_same_self {v : Value} (hv : v.Proper) (h : v.same v = true) :
    v.hasNoNaN = true := by
  induction v using Value.induction with
  | null t | unknown t | string s | bool x => rfl
  | number x =>
    obtain ⟨_, ⟨⟩, hx⟩ := same_number_iff.mp h
    simp [hasNoNaN, everywhere, isComparable, (Double.same_self_iff x).mp hx]
  | list t as ih =>
    obtain ⟨_, _, ⟨⟩, -, hself⟩ := same_list_iff.mp h
    refine everywhere_iff.mpr ⟨rfl, fun a ha => ?_⟩
    exact ih a ha (hv.of_mem_parts ha) (List.forall₂_same.mp hself a ha)
  | set t as ih =>
    obtain ⟨_, _, ⟨⟩, -, -, hself⟩ := same_set_iff.mp h
    refine everywhere_iff.mpr ⟨rfl, fun a ha => ?_⟩
    -- what is the same as any element at all is the same as itself
    obtain ⟨b, hb, hba⟩ := hself a ha
    have hab := same_symm (hv.of_mem_parts hb) (hv.of_mem_parts ha) hba
    exact ih a ha (hv.of_mem_parts ha) (same_trans hab hba)
  | map t as ih =>
    obtain ⟨_, _, ⟨⟩, -, hself⟩ := same_map_iff.mp h
    refine everywhere_iff.mpr ⟨rfl, List.forall_mem_map.mpr fun entry hentry => ?_⟩
    exact ih entry hentry (hv.of_mem_parts (List.mem_map_of_mem hentry))
      (List.forall₂_same.mp hself entry hentry).2
  | object as ih =>
    obtain ⟨_, ⟨⟩, -, hself⟩ := same_object_iff.mp h
    have hdistinct := distinct_of_isWellFormed hv.wellFormed
    refine everywhere_iff.mpr ⟨rfl, List.forall_mem_map.mpr fun field hfield => ?_⟩
    obtain ⟨b, hb, hsame⟩ := hself field hfield
    obtain rfl := Option.some.inj ((Fields.lookup_of_mem hdistinct hfield).symm.trans hb)
    exact ih field hfield (hv.of_mem_parts (List.mem_map_of_mem hfield)) hsame

/-- A proper value is the same as itself exactly if it holds no not-a-number. -/
theorem Proper.same_self_iff {v : Value} (hv : v.Proper) :
    v.same v = true ↔ v.hasNoNaN = true :=
  ⟨hv.hasNoNaN_of_same_self, Value.same_self hv.wellFormed⟩

/-! ## What the same values share -/

/-- Values that are the same have the same type. -/
theorem same_ty_of_same {a b : Value} (h : a.same b = true) : a.ty.same b.ty = true := by
  induction a using Value.induction generalizing b with
  | null t =>
    obtain ⟨u, rfl, htu⟩ := same_null_iff.mp h
    exact htu
  | unknown t =>
    obtain ⟨u, rfl, htu⟩ := same_unknown_iff.mp h
    exact htu
  | string s =>
    obtain rfl := same_string_iff.mp h
    rfl
  | number x =>
    obtain ⟨y, rfl, -⟩ := same_number_iff.mp h
    rfl
  | bool x =>
    obtain rfl := same_bool_iff.mp h
    rfl
  | list t as _ =>
    obtain ⟨u, bs, rfl, htu, -⟩ := same_list_iff.mp h
    exact htu
  | set t as _ =>
    obtain ⟨u, bs, rfl, htu, -⟩ := same_set_iff.mp h
    exact htu
  | map t as _ =>
    obtain ⟨u, bs, rfl, htu, -⟩ := same_map_iff.mp h
    exact htu
  | object as ih =>
    obtain ⟨bs, rfl, hlength, hab⟩ := same_object_iff.mp h
    simp only [ty, fieldTypes_eq_mapValues]
    refine Ty.same_object_iff.mpr ⟨by simpa [Fields.mapValues] using hlength, ?_⟩
    refine List.forall_mem_map.mpr fun field hfield => ?_
    obtain ⟨b, hb, hsame⟩ := hab field hfield
    exact ⟨b.ty, by simp [Fields.lookup_mapValues, hb], ih field hfield hsame⟩

/-- What is the same as a known value is known: all that is in it has its like there. -/
theorem Proper.isWhollyKnown_of_same {a b : Value} (ha : a.Proper) (hb : b.Proper)
    (h : a.same b = true) (hknown : b.isWhollyKnown = true) : a.isWhollyKnown = true := by
  induction a using Value.induction generalizing b with
  | null t | string s | number x | bool x => rfl
  | unknown t =>
    obtain ⟨u, rfl, -⟩ := same_unknown_iff.mp h
    cases hknown
  | list t as ih =>
    obtain ⟨u, bs, rfl, -, hab⟩ := same_list_iff.mp h
    refine isWhollyKnown_list_iff.mpr fun a hmem => ?_
    obtain ⟨b, hmem', hsame⟩ := exists_mem_right hab hmem
    exact ih a hmem (ha.of_mem_parts hmem) (hb.of_mem_parts hmem') hsame
      (isWhollyKnown_list_iff.mp hknown b hmem')
  | set t as ih =>
    obtain ⟨u, bs, rfl, -, -, hab⟩ := same_set_iff.mp h
    refine isWhollyKnown_set_iff.mpr fun a hmem => ?_
    obtain ⟨b, hmem', hba⟩ := hab a hmem
    have hsame := same_symm (hb.of_mem_parts hmem') (ha.of_mem_parts hmem) hba
    exact ih a hmem (ha.of_mem_parts hmem) (hb.of_mem_parts hmem') hsame
      (isWhollyKnown_set_iff.mp hknown b hmem')
  | map t as ih =>
    obtain ⟨u, bs, rfl, -, hab⟩ := same_map_iff.mp h
    refine isWhollyKnown_map_iff.mpr fun entry hentry => ?_
    obtain ⟨other, hother, -, hsame⟩ := exists_mem_right hab hentry
    exact ih entry hentry (ha.of_mem_parts (List.mem_map_of_mem hentry))
      (hb.of_mem_parts (List.mem_map_of_mem hother)) hsame
      (isWhollyKnown_map_iff.mp hknown other hother)
  | object as ih =>
    obtain ⟨bs, rfl, -, hab⟩ := same_object_iff.mp h
    refine isWhollyKnown_object_iff.mpr fun field hfield => ?_
    obtain ⟨b, hlookup, hsame⟩ := hab field hfield
    have hother := Fields.mem_of_lookup hlookup
    exact ih field hfield (ha.of_mem_parts (List.mem_map_of_mem hfield))
      (hb.of_mem_parts (List.mem_map_of_mem hother)) hsame
      (isWhollyKnown_object_iff.mp hknown _ hother)

/-- Proper values that are the same are known or not alike. -/
theorem isWhollyKnown_eq_of_same {a b : Value} (ha : a.Proper) (hb : b.Proper)
    (h : a.same b = true) : a.isWhollyKnown = b.isWhollyKnown := by
  rw [Bool.eq_iff_iff]
  exact ⟨hb.isWhollyKnown_of_same ha (same_symm ha hb h), ha.isWhollyKnown_of_same hb h⟩

/-! ## Sets -/

/-- The elements of a proper set that is contained in another are no more than the elements of
that. -/
theorem Proper.length_le {t u : Ty} {as bs : List Value} (has : (Value.set t as).Proper)
    (hbs : (Value.set u bs).Proper) (h : ∀ a ∈ as, ∃ b ∈ bs, b.same a = true) :
    as.length ≤ bs.length := by
  have hsymm : ∀ a ∈ as, ∀ b ∈ bs, b.same a = true → a.same b = true :=
    fun a ha b hb => same_symm (hbs.of_mem_parts hb) (has.of_mem_parts ha)
  exact length_le_of_matching (pairwise_partners has.pairwise hsymm) h

/-- **Containment of one set in another of its length is containment both ways.** -/
theorem same_set_iff_of_proper {t u : Ty} {as bs : List Value} (has : (Value.set t as).Proper)
    (hbs : (Value.set u bs).Proper) :
    (Value.set t as).same (.set u bs) = true ↔ t.same u = true ∧
      (∀ a ∈ as, ∃ b ∈ bs, b.same a = true) ∧ ∀ b ∈ bs, ∃ a ∈ as, a.same b = true := by
  constructor
  · intro h
    obtain ⟨_, _, ⟨⟩, htu, -, hab⟩ := same_set_iff.mp h
    obtain ⟨_, _, ⟨⟩, -, -, hba⟩ := same_set_iff.mp (same_symm has hbs h)
    exact ⟨htu, hab, hba⟩
  · rintro ⟨htu, hab, hba⟩
    -- neither set has more elements than the other
    exact same_set_iff.mpr ⟨u, bs, rfl, htu,
      Nat.le_antisymm (has.length_le hbs hab) (hbs.length_le has hba), hab⟩

/-! ## Equivalence -/

/-- **Sameness is a partial equivalence that respects types.** On proper values it is symmetric and
transitive, and holds of a value and itself exactly if the value is free of not-a-number. Values
that are the same have the same type and are known or not alike. Sets, which are compared from one
side only, are the same if each is contained in the other. -/
theorem same_partialEquivalence {a b c : Value} (ha : a.Proper) (hb : b.Proper) :
    a.same b = b.same a ∧
      (a.same b = true → b.same c = true → a.same c = true) ∧
      (a.same a = true ↔ a.hasNoNaN = true) ∧
      (a.same b = true → a.ty.same b.ty = true ∧ a.isWhollyKnown = b.isWhollyKnown) ∧
      ∀ t u as bs, a = .set t as → b = .set u bs →
        (a.same b = true ↔ t.same u = true ∧
          (∀ x ∈ as, ∃ y ∈ bs, y.same x = true) ∧ ∀ y ∈ bs, ∃ x ∈ as, x.same y = true) := by
  refine ⟨ha.same_comm hb, same_trans, ha.same_self_iff, fun h => ?shared, ?sets⟩
  case shared => exact ⟨same_ty_of_same h, isWhollyKnown_eq_of_same ha hb h⟩
  case sets =>
    rintro t u as bs rfl rfl
    exact same_set_iff_of_proper ha hb

/-! ### Readings -/

/-- Two readings, one of them not yet known, and a group of tags. -/
def someReadings : Value :=
  .set (.object [("tags", .set .string), ("level", .number)])
    [.object [("tags", .set .string [.string "a", .string "b"]), ("level", .number ⟨0⟩)],
      .object [("tags", .unknown (.set .string)), ("level", .number ⟨0x4000000000000000⟩)]]

/-- The same with the other zero, in another order at every level. -/
def sameReadings : Value :=
  .set (.object [("level", .number), ("tags", .set .string)])
    [.object [("tags", .unknown (.set .string)), ("level", .number ⟨0x4000000000000000⟩)],
      .object [("level", .number ⟨0x8000000000000000⟩),
        ("tags", .set .string [.string "b", .string "a"])]]

/-- One of the readings with something that is not a number. -/
def strayReadings : Value :=
  .set (.object [("level", .number), ("tags", .set .string)])
    [.object [("level", .number ⟨0x7FF8000000000000⟩), ("tags", .set .string [])],
      .object [("tags", .unknown (.set .string)), ("level", .number ⟨0x4000000000000000⟩)]]

/-- Readings are the same in any order, and stray ones not even as themselves. -/
theorem same_partialEquivalence_readings :
    someReadings.Proper ∧ sameReadings.Proper ∧ strayReadings.Proper ∧
      someReadings.same sameReadings = true ∧ sameReadings.same someReadings = true ∧
      someReadings.isWhollyKnown = false ∧ sameReadings.isWhollyKnown = false ∧
      strayReadings.same strayReadings = false := by
  have hsome : someReadings.Proper := ⟨by decide, by decide⟩
  have hothers : sameReadings.Proper := ⟨by decide, by decide⟩
  have hstray : strayReadings.Proper := ⟨by decide, by decide⟩
  have hsame : someReadings.same sameReadings = true := by decide
  obtain ⟨hsymm, -, -, hshared, -⟩ := same_partialEquivalence (c := someReadings) hsome hothers
  obtain ⟨-, -, hself, -⟩ := same_partialEquivalence (c := strayReadings) hstray hstray
  have hknown : someReadings.isWhollyKnown = false := by decide
  have hnan : ¬ strayReadings.hasNoNaN = true := by decide
  exact ⟨hsome, hothers, hstray, hsame, hsymm ▸ hsame, hknown, (hshared hsame).2 ▸ hknown,
    Bool.eq_false_iff.mpr (mt hself.mp hnan)⟩

end Value

end ProviderMock
