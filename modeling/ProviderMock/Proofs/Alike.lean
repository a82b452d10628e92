import ProviderMock.Proofs.Reordering
import ProviderMock.Proofs.Shape

/-!
# Schemas that declare the same

Two blocks declare the same if they have the same attributes and nested blocks, in whatever order,
with the same types, up to the order of attributes in these. A walk sees of a block its fields:
these are *alike* if there are the same names, and what counts under each name is alike.

* **types** — `Part.Alike.type`: fields that are alike have the same type.
* **blocks** — `Block.alike_parts`: blocks that declare the same have fields that are alike, even
  where a nested block has the name of an attribute.
-/

namespace ProviderMock

/-- Fields that differ in nothing but the order of names. Of several fields of one name the last one
counts. -/
inductive Part.Alike : Part → Part → Prop where
  | leaf {t u : Ty} (computed : Bool) (h : t.same u = true) :
      Alike (.leaf t computed) (.leaf u computed)
  | nested {ps qs : List (String × Part)} (nesting : Nesting)
      (hnames : (Fields.names (Fields.ofList ps)).Perm (Fields.names (Fields.ofList qs)))
      (h : ∀ name p q, (Fields.ofList ps).lookup name = some p →
        (Fields.ofList qs).lookup name = some q → Alike p q) :
      Alike (.nested nesting ps) (.nested nesting qs)

namespace Part

/-- The type of objects has the type of the last field of each name. -/
theorem objectType_eq (parts : List (String × Part)) :
    objectType parts = .object (Fields.mapValues type (Fields.ofList parts)) := by
  rw [objectType, Ty.ofFields, types_eq_mapValues, Fields.ofList_mapValues]

/-- Objects have the same type if their fields have, under the same names. -/
theorem same_objectType {ps qs : List (String × Part)}
    (hnames : (Fields.names (Fields.ofList ps)).Perm (Fields.names (Fields.ofList qs)))
    (h : ∀ name p q, (Fields.ofList ps).lookup name = some p →
      (Fields.ofList qs).lookup name = some q → p.type.same q.type = true) :
    (objectType ps).same (objectType qs) = true := by
  have hdistinct : Fields.Distinct (Fields.mapValues type (Fields.ofList ps)) := by
    rw [Fields.Distinct, Fields.names_mapValues]
    exact Fields.distinct_ofList ps
  rw [objectType_eq, objectType_eq, Ty.same_object_iff_of_distinct hdistinct,
    Fields.names_mapValues, Fields.names_mapValues]
  refine ⟨hnames, fun name t u ht hu => ?_⟩
  rw [Fields.lookup_mapValues, Option.map_eq_some_iff] at ht hu
  obtain ⟨p, hp, rfl⟩ := ht
  obtain ⟨q, hq, rfl⟩ := hu
  exact h name p q hp hq

/-- Fields that are alike have the same type. -/
theorem Alike.type {p q : Part} (h : p.Alike q) : p.type.same q.type = true := by
  induction h with
  | leaf computed h => exact h
  | nested nesting hnames _ ih =>
    have hobject := same_objectType hnames ih
    cases nesting with
    | single => exact hobject
    | many collection => cases collection <;> exact hobject

end Part

/-! ## From declarations to fields -/

theorem Attribute.sameAll_iff {as bs : List (String × Attribute)} :
    Attribute.sameAll as bs = true ↔
      ∀ a ∈ as, ∃ b, bs.lookup a.1 = some b ∧ a.2.same b = true := by
  induction as with
  | nil => simp [sameAll]
  | cons a rest ih =>
    obtain ⟨name, a⟩ := a
    rw [sameAll, Bool.and_eq_true, ih, List.forall_mem_cons]
    cases bs.lookup name <;> simp

theorem Block.sameAll_iff {as bs : List (String × Nesting × Block)} :
    Block.sameAll as bs = true ↔
      ∀ a ∈ as, ∃ b, bs.lookup a.1 = some b ∧ a.2.1 = b.1 ∧ a.2.2.same b.2 = true := by
  induction as with
  | nil => simp [sameAll]
  | cons a rest ih =>
    obtain ⟨name, m, a⟩ := a
    rw [sameAll, Bool.and_eq_true, ih, List.forall_mem_cons]
    cases bs.lookup name <;> simp

/-- What is made of related things is related under each name, if related things make it so. -/
theorem Fields.rel_of_lookup_mapValues {α β : Type} {f : α → β} {S : α → α → Prop}
    {T : β → β → Prop} {xs ys : List (String × α)}
    (h : ∀ x ∈ xs, ∃ y, ys.lookup x.1 = some y ∧ S x.2 y)
    (hST : ∀ x ∈ xs, ∀ y, S x.2 y → T (f x.2) (f y)) {name : String} {b c : β}
    (hb : (mapValues f xs).lookup name = some b) (hc : (mapValues f ys).lookup name = some c) :
    T b c := by
  rw [lookup_mapValues, Option.map_eq_some_iff] at hb hc
  obtain ⟨x, hx, rfl⟩ := hb
  obtain ⟨y, hy, rfl⟩ := hc
  obtain ⟨z, hz, hxz⟩ := h (name, x) (mem_of_lookup hx)
  obtain rfl := Option.some.inj (hy.symm.trans hz)
  exact hST (name, x) (mem_of_lookup hx) _ hxz

/-- Names of two lists, in another order in each, are the names of both together in another
order. -/
theorem Fields.perm_names_ofList_append {α : Type} {xs ys xs' ys' : List (String × α)}
    (hxs : Distinct xs) (hys : Distinct ys) (hxs' : (names xs).Perm (names xs'))
    (hys' : (names ys).Perm (names ys')) :
    (names (ofList (xs ++ ys))).Perm (names (ofList (xs' ++ ys'))) := by
  have hhas : has xs' = has xs := by
    funext name
    rw [Bool.eq_iff_iff, has_iff, has_iff, hxs'.mem_iff]
  rw [names_ofList_append hxs hys,
    names_ofList_append (hxs'.nodup_iff.mp hxs) (hys'.nodup_iff.mp hys), hhas]
  exact hxs'.append (hys'.filter _)

/-- Under each name two lists are related together if each of them is. -/
theorem Fields.rel_of_lookup_ofList_append {α : Type} {T : α → α → Prop}
    {xs ys xs' ys' : List (String × α)} (hxs : Distinct xs) (hys : Distinct ys)
    (hxs' : (names xs).Perm (names xs')) (hys' : (names ys).Perm (names ys')) {name : String}
    (hx : ∀ a b, xs.lookup name = some a → xs'.lookup name = some b → T a b)
    (hy : ∀ a b, ys.lookup name = some a → ys'.lookup name = some b → T a b) {a b : α}
    (ha : (ofList (xs ++ ys)).lookup name = some a)
    (hb : (ofList (xs' ++ ys')).lookup name = some b) : T a b := by
  rw [lookup_ofList_append hxs hys] at ha
  rw [lookup_ofList_append (hxs'.nodup_iff.mp hxs) (hys'.nodup_iff.mp hys)] at hb
  have hiff : (∃ a, ys.lookup name = some a) ↔ ∃ b, ys'.lookup name = some b :=
    mem_names_iff.symm.trans (hys'.mem_iff.trans mem_names_iff)
  -- the second lists count where they have the name, and they both have it or both not
  cases hlookup : ys.lookup name with
  | some c =>
    obtain ⟨d, hd⟩ := hiff.mp ⟨c, hlookup⟩
    rw [hlookup, Option.some_or] at ha
    rw [hd, Option.some_or] at hb
    exact hy a b (hlookup.trans ha) (hd.trans hb)
  | none =>
    have hnone : ys'.lookup name = none := by
      rw [Option.eq_none_iff_forall_ne_some]
      intro d hd
      obtain ⟨c, hc⟩ := hiff.mpr ⟨d, hd⟩
      cases hlookup.symm.trans hc
    rw [hlookup, Option.none_or] at ha
    rw [hnone, Option.none_or] at hb
    exact hx a b ha hb

mutual

/-- Attributes that are declared alike have fields that are alike. -/
theorem Attribute.alike_part : ∀ a b : Attribute, a.isWellFormed = true → a.same b = true →
    a.part.Alike b.part
  | .plain t c, b, _, h => by
    cases b with
    | plain u d =>
      rw [Attribute.same, Bool.and_eq_true, beq_iff_eq] at h
      obtain ⟨htu, rfl⟩ := h
      exact .leaf c htu
    | nested u d nesting others => cases h
  | .nested t c nesting attributes, b, hwell, h => by
    cases b with
    | plain u d => cases h
    | nested u d nesting' others =>
      simp only [Attribute.same, Bool.and_eq_true, beq_iff_eq] at h
      obtain ⟨⟨⟨-, rfl⟩, hlength⟩, hall⟩ := h
      rw [Attribute.isWellFormed, Bool.and_eq_true, Bool.and_eq_true, decide_eq_true_iff] at hwell
      obtain ⟨⟨-, hdistinct⟩, hwells⟩ := hwell
      have hsame := Attribute.sameAll_iff.mp hall
      have hnames : (Fields.names attributes).Perm (Fields.names others) :=
        Fields.perm_names hdistinct hlength fun a ha => (hsame a ha).imp fun _ h => h.1
      have hparts := Attribute.distinct_parts hdistinct
      have hothers := Attribute.distinct_parts (hnames.nodup_iff.mp hdistinct)
      rw [Attribute.part, Attribute.part]
      refine .nested nesting ?_ fun name p q hp hq => ?_
      · rw [Fields.ofList_eq_self hparts, Fields.ofList_eq_self hothers, Attribute.names_parts,
          Attribute.names_parts]
        exact hnames
      · rw [Fields.ofList_eq_self hparts, Attribute.parts_eq_mapValues] at hp
        rw [Fields.ofList_eq_self hothers, Attribute.parts_eq_mapValues] at hq
        exact Fields.rel_of_lookup_mapValues (S := fun a b => a.same b = true) hsame
          (Attribute.alike_parts attributes hwells) hp hq
termination_by structural a => a

/-- Each of several attributes has a field that is alike to that of one declared alike. -/
theorem Attribute.alike_parts : ∀ attributes : List (String × Attribute),
    Attribute.areWellFormed attributes = true → ∀ a ∈ attributes, ∀ b, a.2.same b = true →
    a.2.part.Alike b.part
  | [], _, _, ha => absurd ha List.not_mem_nil
  | (_, a) :: rest, hwell, _, hb => by
    rw [Attribute.areWellFormed, Bool.and_eq_true] at hwell
    rcases List.mem_cons.mp hb with rfl | hb
    · exact fun b => Attribute.alike_part a b hwell.1
    · exact Attribute.alike_parts rest hwell.2 _ hb
termination_by structural as => as

end

mutual

/-- Blocks that declare the same have fields that are alike, in whatever they are nested. -/
theorem Block.alike_parts : ∀ b c : Block, b.isWellFormed = true → b.same c = true →
    ∀ nesting, (Part.nested nesting b.parts).Alike (.nested nesting c.parts)
  | .mk attributes blocks, .mk others more, hwell, h => by
    intro nesting
    simp only [Block.same, Bool.and_eq_true, beq_iff_eq] at h
    obtain ⟨⟨⟨hlength, hall⟩, hlengths⟩, halls⟩ := h
    simp only [Block.isWellFormed, Bool.and_eq_true, decide_eq_true_iff] at hwell
    obtain ⟨⟨⟨hattributes, hwells⟩, hblocks⟩, hnested⟩ := hwell
    have hsame := Attribute.sameAll_iff.mp hall
    have hsames := Block.sameAll_iff.mp halls
    have hnames : (Fields.names attributes).Perm (Fields.names others) :=
      Fields.perm_names hattributes hlength fun a ha => (hsame a ha).imp fun _ h => h.1
    have hmore : (Fields.names blocks).Perm (Fields.names more) :=
      Fields.perm_names hblocks hlengths fun b hb => (hsames b hb).imp fun _ h => h.1
    rw [← Attribute.names_parts, ← Attribute.names_parts others] at hnames
    rw [← Block.names_nestedParts, ← Block.names_nestedParts more] at hmore
    have hxs := Attribute.distinct_parts hattributes
    have hys := Block.distinct_nestedParts hblocks
    rw [Block.parts, Block.parts]
    refine .nested nesting (Fields.perm_names_ofList_append hxs hys hnames hmore) ?_
    intro name p q
    refine Fields.rel_of_lookup_ofList_append hxs hys hnames hmore (fun p q hp hq => ?_)
      fun p q hp hq => ?_
    · rw [Attribute.parts_eq_mapValues] at hp hq
      exact Fields.rel_of_lookup_mapValues (S := fun a b => a.same b = true) hsame
        (Attribute.alike_parts attributes hwells) hp hq
    · rw [Block.nestedParts_eq_mapValues] at hp hq
      refine Fields.rel_of_lookup_mapValues (S := fun b c => b.1 = c.1 ∧ b.2.same c.2 = true) hsames
        (fun b hb c hbc => ?_) hp hq
      rw [hbc.1]
      exact Block.alike_nestedParts blocks hnested b hb c.2 hbc.2 c.1
termination_by structural b => b

/-- Each of several nested blocks has fields that are alike to those of one that declares the
same. -/
theorem Block.alike_nestedParts : ∀ blocks : List (String × Nesting × Block),
    Block.areWellFormed blocks = true → ∀ b ∈ blocks, ∀ c, b.2.2.same c = true →
    ∀ nesting, (Part.nested nesting b.2.2.parts).Alike (.nested nesting c.parts)
  | [], _, _, hb => absurd hb List.not_mem_nil
  | (_, _, b) :: rest, hwell, _, hc => by
    rw [Block.areWellFormed, Bool.and_eq_true] at hwell
    rcases List.mem_cons.mp hc with rfl | hc
    · exact fun c => Block.alike_parts b c hwell.1
    · exact Block.alike_nestedParts rest hwell.2 _ hc
termination_by structural bs => bs

end

end ProviderMock
