import ProviderMock.Proofs.Soundness

/-!
# The schema decides the shape

Whatever the target is, a synthesis makes an object with the declared fields and no others. The
fields of a target that are not declared are dropped, and one that is missing is filled in.

What a target can still spoil is a nested field that holds a collection. If there is something else
in its place, neither a null nor a collection that can be read as one of the declared kind, it is
not reshaped but kept.

* **names declared twice** — `Fields.names_ofList_append` and `Fields.lookup_ofList_append`: a
  nested block that has the name of an attribute takes its position.
* **shapes** — `Block.Shaped` follows the declarations, not the parts that a walk makes of them.
* **a whole synthesis** — `shaped_synthesize`.
-/

namespace ProviderMock

/-! ## Names declared twice -/

namespace Fields

variable {α : Type} {xs ys : List (String × α)}

/-- Putting distinct names adds those that are new, in order. -/
theorem names_foldl_put (hys : Distinct ys) (fields : List (String × α)) :
    names (ys.foldl (fun fields pair => put fields pair.1 pair.2) fields) =
      names fields ++ (names ys).filter fun name => !has fields name := by
  induction ys generalizing fields with
  | nil => simp
  | cons pair rest ih =>
    obtain ⟨n, v⟩ := pair
    obtain ⟨hn, hrest⟩ := List.nodup_cons.mp hys
    -- the name that is put is not one of the rest, so the rest has the same new names after it
    have hsame : (names rest).filter (fun name => !has (put fields n v) name) =
        (names rest).filter fun name => !has fields name := by
      refine List.filter_congr fun name hname => ?_
      have hne : name ≠ n := fun heq => hn (heq ▸ hname)
      rw [has, has, lookup_put, if_neg hne]
    rw [List.foldl_cons, ih hrest, hsame, names_put, names_cons, List.filter_cons]
    by_cases hmem : n ∈ names fields
    · simp [hmem, has_iff.mpr hmem]
    · have hhas : has fields n = false := Bool.eq_false_iff.mpr (mt has_iff.mp hmem)
      simp [hmem, hhas]

/-- Of fields that are put, distinct names have the values that are put last. -/
theorem lookup_foldl_put (hys : Distinct ys) (fields : List (String × α)) (name : String) :
    (ys.foldl (fun fields pair => put fields pair.1 pair.2) fields).lookup name =
      (ys.lookup name).or (fields.lookup name) :=
  lookup_foldl lookup_put hys fields name

theorem ofList_append (hxs : Distinct xs) (ys : List (String × α)) :
    ofList (xs ++ ys) = ys.foldl (fun fields pair => put fields pair.1 pair.2) xs := by
  have hself := ofList_eq_self hxs
  rw [ofList] at hself ⊢
  rw [List.foldl_append, hself]

/-- The names that come first keep their positions, and the others add what is new. -/
theorem names_ofList_append (hxs : Distinct xs) (hys : Distinct ys) :
    names (ofList (xs ++ ys)) = names xs ++ (names ys).filter fun name => !has xs name := by
  rw [ofList_append hxs, names_foldl_put hys]

/-- A name of both has the value that comes last. -/
theorem lookup_ofList_append (hxs : Distinct xs) (hys : Distinct ys) (name : String) :
    (ofList (xs ++ ys)).lookup name = (ys.lookup name).or (xs.lookup name) := by
  rw [ofList_append hxs, lookup_foldl_put hys]

end Fields

/-! ## Shapes -/

/-- What nested objects of a type and of the form `Form` are held in: one object as it is, and any
number of them in a collection of the declared kind, with that element type. What is no collection
becomes an empty one or stays as it is in the target. -/
def Nesting.Shaped (mode : Mode) (objectType : Ty) (Form : Value → Value → Prop) :
    Nesting → Value → Value → Prop
  | .single, target, v => Form target v
  | .many collection, target, v =>
    match collection.children? target with
    | some children =>
      ∃ elements, collection.contents? v = some (objectType, elements) ∧
        ∀ e ∈ elements, ∃ child ∈ children, Form child.2 e
    | none =>
      if mode.empties target then collection.contents? v = some (objectType, []) else v = target

mutual

/-- The value `v` has the shape that an attribute declares, for a target. -/
def Attribute.Shaped (mode : Mode) : Attribute → Value → Value → Prop
  | .plain _ _, _, _ => True
  | .nested _ _ nesting attributes, target, v =>
    nesting.Shaped mode (.ofFields (Attribute.impliedTypes attributes))
      (fun target v => ∃ fields, v = .object fields ∧
        Fields.names fields = Fields.names attributes ∧
        Attribute.AllShaped mode attributes target fields) target v
termination_by structural a => a

/-- Under the name of each attribute there is a value of the shape that the attribute declares. -/
def Attribute.AllShaped (mode : Mode) :
    List (String × Attribute) → Value → List (String × Value) → Prop
  | [], _, _ => True
  | (name, a) :: rest, target, fields =>
    (∃ w, fields.lookup name = some w ∧
      a.Shaped mode (target.fieldOr name a.impliedType) w) ∧
    Attribute.AllShaped mode rest target fields
termination_by structural as => as

end

mutual

/-- The value `v` has the shape that a block declares: it is an object that has the attributes and
then the nested blocks. A nested block that has the name of an attribute takes its position. -/
def Block.Shaped (mode : Mode) : Block → Value → Value → Prop
  | .mk attributes blocks, target, v =>
    ∃ fields, v = .object fields ∧
      Fields.names fields = Fields.names attributes ++
        (Fields.names blocks).filter (fun name => !Fields.has attributes name) ∧
      Attribute.AllShaped mode (attributes.filter fun a => !Fields.has blocks a.1) target fields ∧
      Block.AllShaped mode blocks target fields
termination_by structural b => b

/-- Under the name of each nested block there is what the block declares. -/
def Block.AllShaped (mode : Mode) :
    List (String × Nesting × Block) → Value → List (String × Value) → Prop
  | [], _, _ => True
  | (name, nesting, b) :: rest, target, fields =>
    (∃ w, fields.lookup name = some w ∧ nesting.Shaped mode b.impliedType
      (fun target v => b.Shaped mode target v)
      (target.fieldOr name (nesting.wrap b.impliedType)) w) ∧
    Block.AllShaped mode rest target fields
termination_by structural bs => bs

end

/-- The field of an attribute is found under its name. -/
theorem Attribute.lookup_parts {attributes : List (String × Attribute)}
    (hdistinct : Fields.Distinct attributes) {a : String × Attribute} (ha : a ∈ attributes) :
    (Attribute.parts attributes).lookup a.1 = some a.2.part := by
  rw [Attribute.parts_eq_mapValues, Fields.lookup_mapValues, Fields.lookup_of_mem hdistinct ha]
  rfl

/-- The field of a nested block is found under its name. -/
theorem Block.lookup_nestedParts {blocks : List (String × Nesting × Block)}
    (hdistinct : Fields.Distinct blocks) {b : String × Nesting × Block} (hb : b ∈ blocks) :
    (Block.nestedParts blocks).lookup b.1 = some (.nested b.2.1 b.2.2.parts) := by
  rw [Block.nestedParts_eq_mapValues, Fields.lookup_mapValues, Fields.lookup_of_mem hdistinct hb]
  rfl

theorem Attribute.allShaped_iff {mode : Mode} {attributes : List (String × Attribute)}
    {target : Value} {fields : List (String × Value)} :
    Attribute.AllShaped mode attributes target fields ↔ ∀ a ∈ attributes, ∃ w,
      fields.lookup a.1 = some w ∧
        a.2.Shaped mode (target.fieldOr a.1 a.2.impliedType) w := by
  induction attributes with
  | nil => simp [AllShaped]
  | cons a rest ih => simp [AllShaped, ih]

theorem Block.allShaped_iff {mode : Mode} {blocks : List (String × Nesting × Block)}
    {target : Value} {fields : List (String × Value)} :
    Block.AllShaped mode blocks target fields ↔ ∀ b ∈ blocks, ∃ w,
      fields.lookup b.1 = some w ∧ b.2.1.Shaped mode b.2.2.impliedType
        (fun target v => b.2.2.Shaped mode target v)
        (target.fieldOr b.1 (b.2.1.wrap b.2.2.impliedType)) w := by
  induction blocks with
  | nil => simp [AllShaped]
  | cons b rest ih => simp [AllShaped, ih]

namespace Synthesis

variable {mode : Mode} {Fill : Ty → Value → Prop}

/-- A completed object has the names of its parts, and under each name what completes the last part
of that name. -/
theorem CompletesObject.exists_lookup {parts : List (String × Part)} {target v : Value}
    (h : CompletesObject mode Fill parts target v) :
    ∃ fields, v = .object fields ∧ Fields.names fields = Fields.names (Fields.ofList parts) ∧
      ∀ name part, (Fields.ofList parts).lookup name = some part → ∃ w,
        fields.lookup name = some w ∧
          Completes mode Fill part (target.fieldOr name part.type) w := by
  obtain ⟨fields, hfields, rfl⟩ := h
  have haligned := Fields.aligned_ofList (completesFields_iff.mp hfields)
  refine ⟨_, rfl, haligned.names_eq.symm, fun name part hpart => ?_⟩
  obtain ⟨w, hw⟩ := Fields.mem_names_iff.mp
    (haligned.names_eq ▸ Fields.mem_names_iff.mpr ⟨part, hpart⟩)
  obtain ⟨part', hpart', hcompletes⟩ := haligned.lookup hw
  obtain rfl := Option.some.inj (hpart.symm.trans hpart')
  exact ⟨w, hw, hcompletes⟩

/-- What completes nested objects has the declared shape, if what completes one object does. -/
theorem Completes.shaped {parts : List (String × Part)} {Form : Value → Value → Prop}
    (hform : ∀ target v, CompletesObject mode Fill parts target v → Form target v)
    (nesting : Nesting) {target v : Value}
    (h : Completes mode Fill (.nested nesting parts) target v) :
    nesting.Shaped mode (Part.objectType parts) Form target v := by
  cases nesting with
  | single => exact hform target v h
  | many collection =>
    rw [Nesting.Shaped]
    split
    · rename_i children hchildren
      obtain ⟨results, hresults, rfl⟩ := h.exists_results hchildren
      obtain ⟨elements, helements, hmem⟩ :=
        collection.exists_contents_build (Part.objectType parts) results
      refine ⟨elements, helements, fun e he => ?_⟩
      obtain ⟨result, hresult, rfl⟩ := hmem e he
      obtain ⟨child, hchild, -, hcompletes⟩ := exists_mem_left hresults hresult
      exact ⟨child, hchild, hform _ _ hcompletes⟩
    · rename_i hnone
      rw [h.absent hnone]
      split
      · cases collection <;> rfl
      · rfl

mutual

/-- What completes an attribute has the shape that the attribute declares. -/
theorem shaped_attribute : ∀ a : Attribute, a.isWellFormed = true → ∀ target v,
    Completes mode Fill a.part target v → a.Shaped mode target v
  | .plain _ _, _, _, _, _ => trivial
  | .nested _ _ nesting attributes, hwell, target, v, h => by
    rw [Attribute.isWellFormed, Bool.and_eq_true, Bool.and_eq_true, decide_eq_true_iff] at hwell
    obtain ⟨⟨-, hdistinct⟩, hall⟩ := hwell
    have hparts := Attribute.distinct_parts hdistinct
    rw [Attribute.Shaped, Attribute.impliedTypes_eq]
    refine Completes.shaped (fun target v hobject => ?_) nesting h
    obtain ⟨fields, rfl, hnames, hlookup⟩ := hobject.exists_lookup
    rw [Fields.ofList_eq_self hparts] at hnames hlookup
    refine ⟨fields, rfl, hnames.trans (Attribute.names_parts attributes),
      Attribute.allShaped_iff.mpr fun a ha => ?_⟩
    obtain ⟨w, hw, hcompletes⟩ := hlookup _ _ (Attribute.lookup_parts hdistinct ha)
    rw [Attribute.impliedType_eq]
    exact ⟨w, hw, shaped_attributes attributes hall a ha _ _ hcompletes⟩
termination_by structural a => a

/-- What completes one of several attributes has the shape that it declares. -/
theorem shaped_attributes : ∀ attributes : List (String × Attribute),
    Attribute.areWellFormed attributes = true → ∀ a ∈ attributes, ∀ target v,
    Completes mode Fill a.2.part target v → a.2.Shaped mode target v
  | [], _, _, ha => absurd ha List.not_mem_nil
  | (_, a) :: rest, hwell, _, hb => by
    rw [Attribute.areWellFormed, Bool.and_eq_true] at hwell
    rcases List.mem_cons.mp hb with rfl | hb
    · exact shaped_attribute a hwell.1
    · exact shaped_attributes rest hwell.2 _ hb
termination_by structural as => as

end

mutual

/-- What completes a block has the shape that the block declares. -/
theorem shaped_block : ∀ b : Block, b.isWellFormed = true → ∀ target v,
    CompletesObject mode Fill b.parts target v → b.Shaped mode target v
  | .mk attributes blocks, hwell, target, v, h => by
    simp only [Block.isWellFormed, Bool.and_eq_true, decide_eq_true_iff] at hwell
    obtain ⟨⟨⟨hattributes, hall⟩, hblocks⟩, hnested⟩ := hwell
    obtain ⟨fields, rfl, hnames, hlookup⟩ := h.exists_lookup
    have hparts := Attribute.distinct_parts hattributes
    have hmore := Block.distinct_nestedParts hblocks
    rw [Block.Shaped]
    refine ⟨fields, rfl, ?_, Attribute.allShaped_iff.mpr fun a ha => ?_,
      Block.allShaped_iff.mpr fun b hb => ?_⟩
    · have hhas : Fields.has (Attribute.parts attributes) = Fields.has attributes := by
        funext name
        rw [Bool.eq_iff_iff, Fields.has_iff, Fields.has_iff, Attribute.names_parts]
      rw [hnames, Block.parts, Fields.names_ofList_append hparts hmore, Attribute.names_parts,
        Block.names_nestedParts, hhas]
    · obtain ⟨ha, hfree⟩ := List.mem_filter.mp ha
      -- no nested block takes the place of the attribute
      have hnone : (Block.nestedParts blocks).lookup a.1 = none := by
        rw [← Option.not_isSome_iff_eq_none]
        intro hsome
        have hname := Block.names_nestedParts blocks ▸ Fields.has_iff.mp hsome
        simp [Fields.has_iff.mpr hname] at hfree
      obtain ⟨w, hw, hcompletes⟩ := hlookup a.1 a.2.part (by
        rw [Block.parts, Fields.lookup_ofList_append hparts hmore, hnone,
          Attribute.lookup_parts hattributes ha]
        rfl)
      rw [Attribute.impliedType_eq]
      exact ⟨w, hw, shaped_attributes attributes hall a ha _ _ hcompletes⟩
    · obtain ⟨w, hw, hcompletes⟩ := hlookup b.1 (.nested b.2.1 b.2.2.parts) (by
        rw [Block.parts, Fields.lookup_ofList_append hparts hmore,
          Block.lookup_nestedParts hblocks hb]
        rfl)
      rw [Block.impliedType_eq]
      exact ⟨w, hw, hcompletes.shaped (shaped_blocks blocks hnested b hb) b.2.1⟩
termination_by structural b => b

/-- What completes one of several nested blocks has the shape that it declares. -/
theorem shaped_blocks : ∀ blocks : List (String × Nesting × Block),
    Block.areWellFormed blocks = true → ∀ b ∈ blocks, ∀ target v,
    CompletesObject mode Fill b.2.2.parts target v → b.2.2.Shaped mode target v
  | [], _, _, hb => absurd hb List.not_mem_nil
  | (_, _, b) :: rest, hwell, _, hc => by
    rw [Block.areWellFormed, Bool.and_eq_true] at hwell
    rcases List.mem_cons.mp hc with rfl | hc
    · exact shaped_block b hwell.1
    · exact shaped_blocks rest hwell.2 _ hc
termination_by structural bs => bs

end

end Synthesis

open Synthesis

/-- **The schema decides the shape.** Whatever the target, the replacement and the generator, a walk
along a block and a synthesis make an object of the shape that the block declares. -/
theorem shaped_synthesize (schema : Block) (hschema : schema.isWellFormed = true) (mode : Mode)
    (target : Value) :
    (∀ (range : SourceRange) (r : Option Value) (path : Path) (p : Progress),
      schema.Shaped mode target ((⟨mode, range⟩ : Context).block schema target r path p).1) ∧
    ∀ (r : Replacement) (g : Generator),
      schema.Shaped mode target (synthesize mode schema target r g).value := by
  have hblock : ∀ (range : SourceRange) (r : Option Value) (path : Path) (p : Progress),
      schema.Shaped mode target ((⟨mode, range⟩ : Context).block schema target r path p).1 := by
    intro range r path p
    -- the shape does not depend on what leaves are filled with
    have hcompletes : CompletesObject mode (fun _ _ => True) schema.parts target
        ((⟨mode, range⟩ : Context).block schema target r path p).1 :=
      completes_block ⟨mode, range⟩ (Q := fun _ => True) (fun _ _ _ _ _ => trivial)
        (fun _ _ _ _ _ _ _ => trivial) schema target (fun _ _ => trivial) path p
    exact shaped_block schema hschema target _ hcompletes
  exact ⟨hblock, fun r g => hblock r.range r.usable.1 Path.root ⟨g, []⟩⟩

/-- A server that is all wrong, with a field that is not declared, is planned to a server. -/
theorem shaped_synthesize_wrongServer :
    server.isWellFormed = true ∧
      server.Shaped .plan (.object [("name", .string "a"), ("disk", .unknown .string)])
        (planResource server (.object [("name", .string "a"), ("disk", .unknown .string)])
          ⟨some (.object [("disk", .bool true)]), SourceRange.unspecified⟩
          (Generator.seeded 0)).value :=
  ⟨by decide, (shaped_synthesize server (by decide) .plan _).2 _ _⟩

end ProviderMock
