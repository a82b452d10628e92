import ProviderMock.Proofs.Alike
import ProviderMock.Proofs.WrittenDocuments
import ProviderMock.Proofs.WrittenTypes
import ProviderMock.Schema.Json

/-!
# Schemas in writing

A schema leaves out what it has none of, and what is left out is read as the same; so what is
written of a schema is read back. The one thing that is lost is the order of attributes in object
types: `Block.sorted` is what a block is read as.

* **reading** — `Schema.blockOf_toJson`: the document of a block is read as the block in ascending
  order, with as many levels as it has.
* **restatements** — `Block.restates` compares blocks declaration by declaration, in order.
  `Block.same_of_restates`: blocks that restate each other declare the same.
* **texts** — `Block.ofText_exact`: both together for the text of a block.
-/

namespace ProviderMock

/-- Members in a row are as deep as the deepest of the first ones and the others. -/
theorem Json.membersDepth_append_le_iff {members more : List (String × Json)} {n : Nat} :
    membersDepth (members ++ more) ≤ n ↔ membersDepth members ≤ n ∧ membersDepth more ≤ n := by
  simp only [membersDepth_le_iff, List.forall_mem_append]

/-! ## Types -/

namespace Ty

/-- The members of what an object type is written as are what its attributes are written as. -/
theorem exists_of_mem_attributesToJson {attributes : List (String × Ty)} {m : String × Json}
    (hm : m ∈ Entries.ofList (attributesToJson attributes)) :
    ∃ a ∈ attributes, m.2 = a.2.toJson := by
  have hmem := Entries.mem_of_mem_ofList hm
  rw [attributesToJson_eq_mapValues] at hmem
  obtain ⟨a, ha, rfl⟩ := List.mem_map.mp hmem
  exact ⟨a, ha, rfl⟩

/-- There are no numbers in what a type is written as. -/
theorem isNumberFree_toJson (t : Ty) : t.toJson.isNumberFree = true := by
  induction t using Ty.induction with
  | string | number | bool | dynamic => rfl
  | list e ih | set e ih | map e ih => exact Json.isNumberFree_array_iff.mpr (by simp [ih]; rfl)
  | object attributes ih =>
    have hmembers : (Json.ofMembers (attributesToJson attributes)).isNumberFree = true := by
      refine Json.isNumberFree_object_iff.mpr fun m hm => ?_
      obtain ⟨a, ha, hwritten⟩ := exists_of_mem_attributesToJson hm
      exact hwritten ▸ ih a ha
    exact Json.isNumberFree_array_iff.mpr (by simp [hmembers]; rfl)

/-- What a type is written as is data. -/
theorem isData_toJson (t : Ty) : t.toJson.isData = true := by
  induction t using Ty.induction with
  | string | number | bool | dynamic => rfl
  | list e ih | set e ih | map e ih => exact Json.isData_array_iff.mpr (by simp [ih]; rfl)
  | object attributes ih =>
    have hmembers : (Json.ofMembers (attributesToJson attributes)).isData = true := by
      refine Json.isData_object_iff.mpr ⟨Entries.ascending_ofList _, fun m hm => ?_⟩
      obtain ⟨a, ha, hwritten⟩ := exists_of_mem_attributesToJson hm
      exact hwritten ▸ ih a ha
    exact Json.isData_array_iff.mpr (by simp [hmembers]; rfl)

end Ty

/-- What a type is written as is read as the type with its attributes in ascending order. -/
theorem Schema.typeOf_toJson {t : Ty} {depth : Nat} (h : t.toJson.depth ≤ depth) :
    typeOf depth t.toJson.document = .ok t.sorted := by
  rw [typeOf, Document.json?_document t.isNumberFree_toJson t.isData_toJson h]
  simp only [t.ofJson_toJson]
  rfl

/-! ## What schemas are read as -/

mutual

/-- An attribute with the attributes of object types in ascending order. -/
def Attribute.sorted : Attribute → Attribute
  | .plain t computed => .plain t.sorted computed
  | .nested t computed nesting attributes =>
    .nested t.sorted computed nesting (Attribute.allSorted attributes)
termination_by structural a => a

/-- Attributes in their order, with the attributes of object types in ascending order. -/
def Attribute.allSorted : List (String × Attribute) → List (String × Attribute)
  | [] => []
  | (name, a) :: rest => (name, a.sorted) :: Attribute.allSorted rest
termination_by structural as => as

end

mutual

/-- A block with the attributes of object types in ascending order. Everything else keeps its
order. -/
def Block.sorted : Block → Block
  | .mk attributes blocks => .mk (Attribute.allSorted attributes) (Block.allSorted blocks)
termination_by structural b => b

/-- Nested blocks in their order, with the attributes of object types in ascending order. -/
def Block.allSorted : List (String × Nesting × Block) → List (String × Nesting × Block)
  | [] => []
  | (name, nesting, b) :: rest => (name, nesting, b.sorted) :: Block.allSorted rest
termination_by structural bs => bs

end

theorem Attribute.allSorted_eq_mapValues (attributes : List (String × Attribute)) :
    Attribute.allSorted attributes = Fields.mapValues Attribute.sorted attributes := by
  induction attributes with
  | nil => rfl
  | cons first rest ih =>
    obtain ⟨name, a⟩ := first
    rw [Attribute.allSorted, ih]
    rfl

theorem Block.allSorted_eq_mapValues (blocks : List (String × Nesting × Block)) :
    Block.allSorted blocks = Fields.mapValues (fun declared => (declared.1, declared.2.sorted))
      blocks := by
  induction blocks with
  | nil => rfl
  | cons first rest ih =>
    obtain ⟨name, nesting, b⟩ := first
    rw [Block.allSorted, ih]
    rfl

theorem Attribute.distinct_allSorted {attributes : List (String × Attribute)}
    (h : Fields.Distinct attributes) : Fields.Distinct (Attribute.allSorted attributes) := by
  rw [Attribute.allSorted_eq_mapValues, Fields.Distinct, Fields.names_mapValues]
  exact h

theorem Block.distinct_allSorted {blocks : List (String × Nesting × Block)}
    (h : Fields.Distinct blocks) : Fields.Distinct (Block.allSorted blocks) := by
  rw [Block.allSorted_eq_mapValues, Fields.Distinct, Fields.names_mapValues]
  exact h

theorem Attribute.allSorted_of_allToJson_eq_nil {attributes : List (String × Attribute)}
    (h : Attribute.allToJson attributes = []) : Attribute.allSorted attributes = [] := by
  cases attributes with
  | nil => rfl
  | cons first rest => cases h

theorem Block.allSorted_of_allToJson_eq_nil {blocks : List (String × Nesting × Block)}
    (h : Block.allToJson blocks = []) : Block.allSorted blocks = [] := by
  cases blocks with
  | nil => rfl
  | cons first rest => cases h

namespace Schema

/-- The name of a nesting is read as the nesting. -/
theorem nestingOfName_name (nesting : Nesting) : nestingOfName nesting.name = .ok nesting := by
  rcases nesting with _ | (_ | _ | _) <;> rfl

/-- Declarations that are read one by one, each put after those before, are all there in the end. -/
theorem attributesOf_of_members {attributes : List (String × Attribute)}
    (hdistinct : Fields.Distinct attributes) {members : List (String × Json)} {depth : Nat}
    (h : ∀ before, attributesMembers depth before (Json.memberDocuments members) true =
      .ok (attributes.foldl (fun fields a => Fields.put fields a.1 a.2) before)) :
    attributesOf (depth + 1) (Json.object members).document = .ok attributes := by
  rw [Json.document, attributesOf, if_neg (Nat.succ_ne_zero depth), Nat.add_sub_cancel, h []]
  exact congrArg Except.ok (Fields.ofList_eq_self hdistinct)

/-- Nested attributes are read with their nesting. -/
theorem nestedTypeOf_of_attributes {depth : Nat} (nesting : Nesting) {members : List (String × Json)}
    {attributes : List (String × Attribute)}
    (h : attributesOf depth (Json.object members).document = .ok attributes) :
    nestedTypeOf (depth + 1) (Json.object [("attributes", .object members),
      ("nesting", .string nesting.name)]).document = .ok (some (nesting, attributes)) := by
  have hnesting : nestingOf depth (Json.string nesting.name).document = .ok nesting :=
    nestingOfName_name nesting
  rw [Json.document, nestedTypeOf, if_neg (Nat.succ_ne_zero depth), Nat.add_sub_cancel]
  simp only [Json.memberDocuments, nestedTypeMembers, h, hnesting]
  rfl

mutual

/-- **An attribute is read back** from what it is written as. -/
theorem attributeOf_toJson : ∀ a : Attribute, a.isWellFormed = true → ∀ depth : Nat,
    a.toJson.depth ≤ depth → attributeOf depth a.toJson.document = .ok a.sorted
  | .plain t computed, _, depth, hdepth => by
    obtain ⟨depth, rfl⟩ := Nat.exists_eq_add_of_le' (Nat.le_trans (Nat.le_add_left 1 _) hdepth)
    have hmembers := Json.membersDepth_le_iff.mp (Nat.le_of_succ_le_succ hdepth)
    have htype := typeOf_toJson (hmembers ("type", t.toJson) (by simp))
    rw [Attribute.toJson, Json.document, attributeOf, if_neg (Nat.succ_ne_zero depth)]
    simp only [Json.memberDocuments, attributeMembers, Nat.add_one_sub_one, htype]
    rfl
  | .nested t computed nesting attributes, ha, depth, hdepth => by
    simp only [Attribute.isWellFormed, Bool.and_eq_true, decide_eq_true_iff] at ha
    obtain ⟨⟨-, hdistinct⟩, hall⟩ := ha
    simp only [Attribute.toJson, Json.depth, Json.membersDepth] at hdepth
    obtain ⟨depth, rfl⟩ : ∃ k, depth = k + 3 := Nat.exists_eq_add_of_le' (by omega)
    have htype : typeOf (depth + 2) t.toJson.document = .ok t.sorted := typeOf_toJson (by omega)
    have hread := attributesOf_of_members (Attribute.distinct_allSorted hdistinct) fun before =>
      attributesMembers_allToJson attributes hall depth before (by omega)
    have hnested := nestedTypeOf_of_attributes nesting hread
    rw [Attribute.toJson, Json.document, attributeOf, if_neg (Nat.succ_ne_zero _)]
    simp only [Json.memberDocuments, attributeMembers, Nat.add_one_sub_one, htype, hnested]
    rfl
termination_by structural a => a

/-- Attributes are read back from what they are written as. -/
theorem attributesMembers_allToJson : ∀ attributes : List (String × Attribute),
    Attribute.areWellFormed attributes = true → ∀ (depth : Nat) (before : List (String × Attribute)),
    Json.membersDepth (Attribute.allToJson attributes) ≤ depth →
    attributesMembers depth before (Json.memberDocuments (Attribute.allToJson attributes)) true =
      .ok ((Attribute.allSorted attributes).foldl (fun fields a => Fields.put fields a.1 a.2) before)
  | [], _, _, _, _ => rfl
  | (name, a) :: rest, hall, depth, before, hdepth => by
    simp only [Attribute.areWellFormed, Bool.and_eq_true] at hall
    simp only [Attribute.allToJson, Json.membersDepth, Nat.max_le] at hdepth
    have ha := attributeOf_toJson a hall.1 depth hdepth.1
    have hrest := attributesMembers_allToJson rest hall.2 depth
      (Fields.put before name a.sorted) hdepth.2
    rw [Attribute.allToJson, Json.memberDocuments, attributesMembers, ha]
    exact hrest
termination_by structural attributes => attributes

end

/-! ### Blocks -/

/-- Nested blocks that are read one by one, each put after those before, are all there in the
end. -/
theorem blocksOf_of_members {blocks : List (String × Nesting × Block)}
    (hdistinct : Fields.Distinct blocks) {members : List (String × Json)} {depth : Nat}
    (h : ∀ before, blocksMembers depth before (Json.memberDocuments members) true =
      .ok (blocks.foldl (fun fields b => Fields.put fields b.1 b.2) before)) :
    blocksOf (depth + 1) (Json.object members).document = .ok blocks := by
  rw [Json.document, blocksOf, if_neg (Nat.succ_ne_zero depth), Nat.add_sub_cancel, h []]
  exact congrArg Except.ok (Fields.ofList_eq_self hdistinct)

/-- A nested block is read with its nesting. -/
theorem nestedBlockOf_of_block {depth : Nat} (nesting : Nesting) {json : Json} {b : Block}
    (h : blockOf depth json.document = .ok b) :
    nestedBlockOf (depth + 1) (Json.object [("block", json),
      ("nesting", .string nesting.name)]).document = .ok (nesting, b) := by
  have hnesting : nestingOf depth (Json.string nesting.name).document = .ok nesting :=
    nestingOfName_name nesting
  rw [Json.document, nestedBlockOf, if_neg (Nat.succ_ne_zero depth), Nat.add_sub_cancel]
  simp only [Json.memberDocuments, nestedBlockMembers, h, hnesting]
  rfl

/-- The attributes of a block are read, and left out where there are none. -/
theorem blockMembers_attributes {depth : Nat} {members rest : List (String × Json)}
    {attributes : List (String × Attribute)} (hnil : members = [] → attributes = [])
    (h : members ≠ [] → attributesOf depth (Json.object members).document = .ok attributes) :
    ∃ read : Option (List (String × Attribute)), read.getD [] = attributes ∧
      blockMembers depth none none
          (Json.memberDocuments (declarations "attributes" members ++ rest)) true =
        blockMembers depth read none (Json.memberDocuments rest) true := by
  cases members with
  | nil => exact ⟨none, (hnil rfl).symm, rfl⟩
  | cons m more =>
    refine ⟨some attributes, rfl, ?_⟩
    have hmembers : declarations "attributes" (m :: more) ++ rest =
        ("attributes", .object (m :: more)) :: rest := rfl
    rw [hmembers, Json.memberDocuments, blockMembers]
    simp only [h (List.cons_ne_nil m more)]
    rfl

/-- The nested blocks of a block are read, and left out where there are none. -/
theorem blockMembers_blocks {depth : Nat} {members : List (String × Json)}
    {blocks : List (String × Nesting × Block)} (hnil : members = [] → blocks = [])
    (h : members ≠ [] → blocksOf depth (Json.object members).document = .ok blocks)
    (read : Option (List (String × Attribute))) :
    blockMembers depth read none
        (Json.memberDocuments (declarations "block_types" members)) true =
      .ok (.mk (read.getD []) blocks) := by
  cases members with
  | nil =>
    rw [hnil rfl]
    rfl
  | cons m more =>
    have hmembers : declarations "block_types" (m :: more) =
        [("block_types", .object (m :: more))] := rfl
    rw [hmembers, Json.memberDocuments, blockMembers]
    simp only [h (List.cons_ne_nil m more)]
    rfl

/-- Declarations of which there are some are one level deeper than what holds them. -/
theorem exists_depth_of_declarations {name : String} {members : List (String × Json)} {depth : Nat}
    (hmembers : members ≠ []) (h : Json.membersDepth (declarations name members) ≤ depth) :
    ∃ k, depth = k + 1 ∧ Json.membersDepth members ≤ k := by
  have hsome : declarations name members = [(name, .object members)] := by
    cases members with
    | nil => exact absurd rfl hmembers
    | cons m more => rfl
  rw [hsome, Json.membersDepth, Json.depth] at h
  obtain ⟨k, rfl⟩ : ∃ k, depth = k + 1 := Nat.exists_eq_add_of_le' (by omega)
  exact ⟨k, rfl, by omega⟩

mutual

/-- **A block is read back** from what it is written as. -/
theorem blockOf_toJson : ∀ b : Block, b.isWellFormed = true → ∀ depth : Nat,
    b.toJson.depth ≤ depth → blockOf depth b.toJson.document = .ok b.sorted
  | .mk attributes blocks, hb, depth, hdepth => by
    simp only [Block.isWellFormed, Bool.and_eq_true, decide_eq_true_iff] at hb
    obtain ⟨⟨⟨hattributes, hall⟩, hblocks⟩, hall'⟩ := hb
    obtain ⟨depth, rfl⟩ := Nat.exists_eq_add_of_le' (Nat.le_trans (Nat.le_add_left 1 _) hdepth)
    have hmembers := Json.membersDepth_append_le_iff.mp (Nat.le_of_succ_le_succ hdepth)
    have hread : Attribute.allToJson attributes ≠ [] → attributesOf depth
        (Json.object (Attribute.allToJson attributes)).document =
          .ok (Attribute.allSorted attributes) := by
      intro hsome
      obtain ⟨k, rfl, hk⟩ := exists_depth_of_declarations hsome hmembers.1
      exact attributesOf_of_members (Attribute.distinct_allSorted hattributes) fun before =>
        attributesMembers_allToJson attributes hall k before hk
    have hread' : Block.allToJson blocks ≠ [] → blocksOf depth
        (Json.object (Block.allToJson blocks)).document = .ok (Block.allSorted blocks) := by
      intro hsome
      obtain ⟨k, rfl, hk⟩ := exists_depth_of_declarations hsome hmembers.2
      exact blocksOf_of_members (Block.distinct_allSorted hblocks) fun before =>
        blocksMembers_allToJson blocks hall' k before hk
    obtain ⟨read, hsorted, hfirst⟩ := blockMembers_attributes
      Attribute.allSorted_of_allToJson_eq_nil hread
    have hsecond := blockMembers_blocks Block.allSorted_of_allToJson_eq_nil hread' read
    rw [Block.toJson, Json.document, blockOf, if_neg (Nat.succ_ne_zero depth), Nat.add_one_sub_one,
      hfirst, hsecond, hsorted, Block.sorted]
termination_by structural b => b

/-- Nested blocks are read back from what they are written as. -/
theorem blocksMembers_allToJson : ∀ blocks : List (String × Nesting × Block),
    Block.areWellFormed blocks = true → ∀ (depth : Nat) (before : List (String × Nesting × Block)),
    Json.membersDepth (Block.allToJson blocks) ≤ depth →
    blocksMembers depth before (Json.memberDocuments (Block.allToJson blocks)) true =
      .ok ((Block.allSorted blocks).foldl (fun fields b => Fields.put fields b.1 b.2) before)
  | [], _, _, _, _ => rfl
  | (name, nesting, b) :: rest, hall, depth, before, hdepth => by
    simp only [Block.areWellFormed, Bool.and_eq_true] at hall
    simp only [Block.allToJson, Json.membersDepth, Json.depth] at hdepth
    obtain ⟨depth, rfl⟩ : ∃ k, depth = k + 1 := Nat.exists_eq_add_of_le' (by omega)
    have hb := nestedBlockOf_of_block nesting (blockOf_toJson b hall.1 depth (by omega))
    have hrest := blocksMembers_allToJson rest hall.2 (depth + 1)
      (Fields.put before name (nesting, b.sorted)) (by omega)
    rw [Block.allToJson, Json.memberDocuments, blocksMembers, hb]
    exact hrest
termination_by structural blocks => blocks

end

end Schema

/-! ## Restatements -/

mutual

/-- Whether two attributes declare the same, and what they hold in the same order. -/
def Attribute.restates : Attribute → Attribute → Bool
  | .plain t c, .plain u d => t.same u && c == d
  | .nested t c m as, .nested u d n bs =>
    t.same u && c == d && m == n && Attribute.allRestate as bs
  | _, _ => false
termination_by structural a => a

/-- Whether attributes declare the same one by one. -/
def Attribute.allRestate : List (String × Attribute) → List (String × Attribute) → Bool
  | [], [] => true
  | (name, a) :: as, (other, b) :: bs =>
    name == other && a.restates b && Attribute.allRestate as bs
  | _, _ => false
termination_by structural as => as

end

mutual

/-- Whether two blocks declare the same, and everything in the same order but the attributes of
object types. -/
def Block.restates : Block → Block → Bool
  | .mk as bs, .mk cs ds => Attribute.allRestate as cs && Block.allRestate bs ds
termination_by structural b => b

/-- Whether nested blocks declare the same one by one. -/
def Block.allRestate :
    List (String × Nesting × Block) → List (String × Nesting × Block) → Bool
  | [], [] => true
  | (name, m, a) :: as, (other, n, b) :: bs =>
    name == other && m == n && a.restates b && Block.allRestate as bs
  | _, _ => false
termination_by structural as => as

end

mutual

/-- What an attribute is read as restates it. -/
theorem Attribute.restates_sorted : ∀ a : Attribute, a.isWellFormed = true →
    a.sorted.restates a = true
  | .plain t c, ha => by
    simp [Attribute.sorted, Attribute.restates, Ty.same_sorted ha]
  | .nested t c m as, ha => by
    simp only [Attribute.isWellFormed, Bool.and_eq_true] at ha
    simp [Attribute.sorted, Attribute.restates, Ty.same_sorted ha.1.1,
      Attribute.allRestate_allSorted as ha.2]
termination_by structural a => a

/-- What attributes are read as restates them. -/
theorem Attribute.allRestate_allSorted : ∀ as : List (String × Attribute),
    Attribute.areWellFormed as = true → Attribute.allRestate (Attribute.allSorted as) as = true
  | [], _ => rfl
  | (name, a) :: rest, h => by
    simp only [Attribute.areWellFormed, Bool.and_eq_true] at h
    simp [Attribute.allSorted, Attribute.allRestate, Attribute.restates_sorted a h.1,
      Attribute.allRestate_allSorted rest h.2]
termination_by structural as => as

end

mutual

/-- What a block is read as restates it. -/
theorem Block.restates_sorted : ∀ b : Block, b.isWellFormed = true → b.sorted.restates b = true
  | .mk as bs, h => by
    simp only [Block.isWellFormed, Bool.and_eq_true] at h
    simp [Block.sorted, Block.restates, Attribute.allRestate_allSorted as h.1.1.2,
      Block.allRestate_allSorted bs h.2]
termination_by structural b => b

/-- What nested blocks are read as restates them. -/
theorem Block.allRestate_allSorted : ∀ bs : List (String × Nesting × Block),
    Block.areWellFormed bs = true → Block.allRestate (Block.allSorted bs) bs = true
  | [], _ => rfl
  | (name, m, b) :: rest, h => by
    simp only [Block.areWellFormed, Bool.and_eq_true] at h
    simp [Block.allSorted, Block.allRestate, Block.restates_sorted b h.1,
      Block.allRestate_allSorted rest h.2]
termination_by structural bs => bs

end

mutual

/-- Attributes that restate each other declare the same. -/
theorem Attribute.same_of_restates : ∀ a b : Attribute, a.restates b = true →
    b.isWellFormed = true → a.same b = true
  | .plain t c, .plain u d, h, _ => h
  | .nested t c m as, .nested u d n bs, h, hb => by
    simp only [Attribute.restates, Bool.and_eq_true] at h
    simp only [Attribute.isWellFormed, Bool.and_eq_true, decide_eq_true_iff] at hb
    have hall := Attribute.aligned_of_allRestate as bs h.2 hb.2
    simp only [Attribute.same, Bool.and_eq_true, beq_iff_eq] at h ⊢
    exact ⟨⟨h.1, hall.length_eq⟩, Attribute.sameAll_iff.mpr fun a ha =>
      hall.exists_lookup hb.1.2 ha⟩
  | .plain _ _, .nested _ _ _ _, h, _ => nomatch h
  | .nested _ _ _ _, .plain _ _, h, _ => nomatch h
termination_by structural a => a

/-- Attributes that restate each other one by one declare the same under each name. -/
theorem Attribute.aligned_of_allRestate : ∀ as bs : List (String × Attribute),
    Attribute.allRestate as bs = true → Attribute.areWellFormed bs = true →
    Fields.Aligned (fun _ a b => a.same b = true) as bs
  | [], [], _, _ => .nil
  | (name, a) :: as, (other, b) :: bs, h, hall => by
    simp only [Attribute.allRestate, Bool.and_eq_true, beq_iff_eq] at h
    simp only [Attribute.areWellFormed, Bool.and_eq_true] at hall
    exact .cons ⟨h.1.1, Attribute.same_of_restates a b h.1.2 hall.1⟩
      (Attribute.aligned_of_allRestate as bs h.2 hall.2)
  | [], _ :: _, h, _ => nomatch h
  | _ :: _, [], h, _ => nomatch h
termination_by structural as => as

end

mutual

/-- Blocks that restate each other declare the same. -/
theorem Block.same_of_restates : ∀ a b : Block, a.restates b = true → b.isWellFormed = true →
    a.same b = true
  | .mk as bs, .mk cs ds, h, hb => by
    simp only [Block.restates, Bool.and_eq_true] at h
    simp only [Block.isWellFormed, Bool.and_eq_true, decide_eq_true_iff] at hb
    have hattributes := Attribute.aligned_of_allRestate as cs h.1 hb.1.1.2
    have hblocks := Block.aligned_of_allRestate bs ds h.2 hb.2
    simp only [Block.same, Bool.and_eq_true, beq_iff_eq]
    exact ⟨⟨⟨hattributes.length_eq, Attribute.sameAll_iff.mpr fun a ha =>
      hattributes.exists_lookup hb.1.1.1 ha⟩, hblocks.length_eq⟩, Block.sameAll_iff.mpr fun b hb' =>
      hblocks.exists_lookup hb.1.2 hb'⟩
termination_by structural a => a

/-- Nested blocks that restate each other one by one declare the same under each name. -/
theorem Block.aligned_of_allRestate : ∀ as bs : List (String × Nesting × Block),
    Block.allRestate as bs = true → Block.areWellFormed bs = true →
    Fields.Aligned (fun _ a b => a.1 = b.1 ∧ a.2.same b.2 = true) as bs
  | [], [], _, _ => .nil
  | (name, m, a) :: as, (other, n, b) :: bs, h, hall => by
    simp only [Block.allRestate, Bool.and_eq_true, beq_iff_eq] at h
    simp only [Block.areWellFormed, Bool.and_eq_true] at hall
    exact .cons ⟨h.1.1.1, h.1.1.2, Block.same_of_restates a b h.1.2 hall.1⟩
      (Block.aligned_of_allRestate as bs h.2 hall.2)
  | [], _ :: _, h, _ => nomatch h
  | _ :: _, [], h, _ => nomatch h
termination_by structural as => as

end

mutual

/-- A restatement of an attribute is restated by it. -/
theorem Attribute.restates_symm : ∀ a b : Attribute, a.restates b = true →
    a.isWellFormed = true → b.restates a = true
  | .plain t c, .plain u d, h, ha => by
    simp only [Attribute.restates, Bool.and_eq_true, beq_iff_eq] at h ⊢
    exact ⟨Ty.same_symm ha h.1, h.2.symm⟩
  | .nested t c m as, .nested u d n bs, h, ha => by
    simp only [Attribute.isWellFormed, Bool.and_eq_true] at ha
    simp only [Attribute.restates, Bool.and_eq_true, beq_iff_eq] at h ⊢
    obtain ⟨⟨⟨ht, hc⟩, hm⟩, hall⟩ := h
    exact ⟨⟨⟨Ty.same_symm ha.1.1 ht, hc.symm⟩, hm.symm⟩, Attribute.allRestate_symm as bs hall ha.2⟩
  | .plain _ _, .nested _ _ _ _, h, _ => nomatch h
  | .nested _ _ _ _, .plain _ _, h, _ => nomatch h
termination_by structural a => a

/-- Restatements of attributes are restated by them. -/
theorem Attribute.allRestate_symm : ∀ as bs : List (String × Attribute),
    Attribute.allRestate as bs = true → Attribute.areWellFormed as = true →
    Attribute.allRestate bs as = true
  | [], [], _, _ => rfl
  | (name, a) :: as, (other, b) :: bs, h, hall => by
    simp only [Attribute.areWellFormed, Bool.and_eq_true] at hall
    simp only [Attribute.allRestate, Bool.and_eq_true, beq_iff_eq] at h ⊢
    exact ⟨⟨h.1.1.symm, Attribute.restates_symm a b h.1.2 hall.1⟩,
      Attribute.allRestate_symm as bs h.2 hall.2⟩
  | [], _ :: _, h, _ => nomatch h
  | _ :: _, [], h, _ => nomatch h
termination_by structural as => as

end

mutual

/-- A restatement of a block is restated by it. -/
theorem Block.restates_symm : ∀ a b : Block, a.restates b = true → a.isWellFormed = true →
    b.restates a = true
  | .mk as bs, .mk cs ds, h, ha => by
    simp only [Block.isWellFormed, Bool.and_eq_true] at ha
    simp only [Block.restates, Bool.and_eq_true] at h ⊢
    exact ⟨Attribute.allRestate_symm as cs h.1 ha.1.1.2, Block.allRestate_symm bs ds h.2 ha.2⟩
termination_by structural a => a

/-- Restatements of nested blocks are restated by them. -/
theorem Block.allRestate_symm : ∀ as bs : List (String × Nesting × Block),
    Block.allRestate as bs = true → Block.areWellFormed as = true → Block.allRestate bs as = true
  | [], [], _, _ => rfl
  | (name, m, a) :: as, (other, n, b) :: bs, h, hall => by
    simp only [Block.areWellFormed, Bool.and_eq_true] at hall
    simp only [Block.allRestate, Bool.and_eq_true, beq_iff_eq] at h ⊢
    obtain ⟨⟨⟨hname, hm⟩, hb⟩, hrest⟩ := h
    exact ⟨⟨⟨hname.symm, hm.symm⟩, Block.restates_symm a b hb hall.1⟩,
      Block.allRestate_symm as bs hrest hall.2⟩
  | [], _ :: _, h, _ => nomatch h
  | _ :: _, [], h, _ => nomatch h
termination_by structural as => as

end

/-! ### Well-formed readings -/

mutual

/-- What a well-formed attribute is read as is well-formed. -/
theorem Attribute.isWellFormed_sorted : ∀ a : Attribute, a.isWellFormed = true →
    a.sorted.isWellFormed = true
  | .plain _ _, ha => Ty.isWellFormed_sorted ha
  | .nested t c m as, ha => by
    simp only [Attribute.sorted, Attribute.isWellFormed, Bool.and_eq_true,
      decide_eq_true_iff] at ha ⊢
    exact ⟨⟨Ty.isWellFormed_sorted ha.1.1, Attribute.distinct_allSorted ha.1.2⟩,
      Attribute.areWellFormed_allSorted as ha.2⟩
termination_by structural a => a

/-- What well-formed attributes are read as is well-formed. -/
theorem Attribute.areWellFormed_allSorted : ∀ as : List (String × Attribute),
    Attribute.areWellFormed as = true → Attribute.areWellFormed (Attribute.allSorted as) = true
  | [], _ => rfl
  | (name, a) :: rest, h => by
    simp only [Attribute.allSorted, Attribute.areWellFormed, Bool.and_eq_true] at h ⊢
    exact ⟨Attribute.isWellFormed_sorted a h.1, Attribute.areWellFormed_allSorted rest h.2⟩
termination_by structural as => as

end

mutual

/-- What a well-formed block is read as is well-formed. -/
theorem Block.isWellFormed_sorted : ∀ b : Block, b.isWellFormed = true →
    b.sorted.isWellFormed = true
  | .mk as bs, h => by
    simp only [Block.sorted, Block.isWellFormed, Bool.and_eq_true, decide_eq_true_iff] at h ⊢
    obtain ⟨⟨⟨hattributes, hall⟩, hblocks⟩, hall'⟩ := h
    exact ⟨⟨⟨Attribute.distinct_allSorted hattributes, Attribute.areWellFormed_allSorted as hall⟩,
      Block.distinct_allSorted hblocks⟩, Block.areWellFormed_allSorted bs hall'⟩
termination_by structural b => b

/-- What well-formed nested blocks are read as is well-formed. -/
theorem Block.areWellFormed_allSorted : ∀ bs : List (String × Nesting × Block),
    Block.areWellFormed bs = true → Block.areWellFormed (Block.allSorted bs) = true
  | [], _ => rfl
  | (name, m, b) :: rest, h => by
    simp only [Block.allSorted, Block.areWellFormed, Bool.and_eq_true] at h ⊢
    exact ⟨Block.isWellFormed_sorted b h.1, Block.areWellFormed_allSorted rest h.2⟩
termination_by structural bs => bs

end

/-! ## Texts -/

mutual

/-- There are no numbers in what an attribute is written as. -/
theorem Attribute.isNumberFree_toJson : ∀ a : Attribute, a.toJson.isNumberFree = true
  | .plain t computed => by
    simp [Attribute.toJson, Json.isNumberFree, Json.membersNumberFree, t.isNumberFree_toJson]
  | .nested t computed nesting attributes => by
    simp [Attribute.toJson, Json.isNumberFree, Json.membersNumberFree, t.isNumberFree_toJson,
      Attribute.membersNumberFree_allToJson attributes]
termination_by structural a => a

/-- There are no numbers in what attributes are written as. -/
theorem Attribute.membersNumberFree_allToJson : ∀ attributes : List (String × Attribute),
    Json.membersNumberFree (Attribute.allToJson attributes) = true
  | [] => rfl
  | (name, a) :: rest => by
    rw [Attribute.allToJson, Json.membersNumberFree, Attribute.isNumberFree_toJson a,
      Attribute.membersNumberFree_allToJson rest]
    rfl
termination_by structural attributes => attributes

end

/-- There are no numbers in declarations if there are none in what is declared. -/
theorem isNumberFree_of_mem_declarations {name : String} {members : List (String × Json)}
    (h : Json.membersNumberFree members = true) :
    ∀ m ∈ declarations name members, m.2.isNumberFree = true := by
  intro m hm
  rw [declarations] at hm
  split at hm
  · cases hm
  · obtain rfl := List.mem_singleton.mp hm
    exact h

mutual

/-- There are no numbers in what a block is written as. -/
theorem Block.isNumberFree_toJson : ∀ b : Block, b.toJson.isNumberFree = true
  | .mk attributes blocks => by
    rw [Block.toJson, Json.isNumberFree_object_iff, List.forall_mem_append]
    exact ⟨isNumberFree_of_mem_declarations (Attribute.membersNumberFree_allToJson attributes),
      isNumberFree_of_mem_declarations (Block.membersNumberFree_allToJson blocks)⟩
termination_by structural b => b

/-- There are no numbers in what nested blocks are written as. -/
theorem Block.membersNumberFree_allToJson : ∀ blocks : List (String × Nesting × Block),
    Json.membersNumberFree (Block.allToJson blocks) = true
  | [] => rfl
  | (name, nesting, b) :: rest => by
    simp [Block.allToJson, Json.membersNumberFree, Json.isNumberFree, Block.isNumberFree_toJson b,
      Block.membersNumberFree_allToJson rest]
termination_by structural blocks => blocks

end

namespace Block

/-- What a block is written as is read, if it is not too deep. -/
theorem ofText_text {b : Block} (hb : b.isWellFormed = true)
    (hdepth : b.toJson.depth ≤ Document.maxDepth) : ofText b.toJson.text = .ok b.sorted := by
  rw [ofText, Document.ofText_text b.isNumberFree_toJson]
  simp only [Schema.blockOf_toJson b hb _ hdepth]
  rfl

/-- **Schemas in writing are read back.** The text of a well-formed block, if it is not too deep, is
read as the block with the attributes of object types in ascending order. This is the same block,
and it declares everything else in the same order at every level. -/
theorem ofText_exact {b : Block} (hb : b.isWellFormed = true)
    (hdepth : b.toJson.depth ≤ Document.maxDepth) :
    ofText b.toJson.text = .ok b.sorted ∧ b.sorted.same b = true ∧ b.same b.sorted = true ∧
      b.sorted.restates b = true := by
  have hrestates := restates_sorted b hb
  exact ⟨ofText_text hb hdepth, same_of_restates _ _ hrestates hb,
    same_of_restates _ _ (restates_symm _ _ hrestates (isWellFormed_sorted b hb))
      (isWellFormed_sorted b hb), hrestates⟩

/-- A mailbox has an address of two parts, aliases that are nested attributes, quotas in blocks and
a block that declares nothing. -/
def mailbox : Block :=
  .mk [("owner", .plain (.object [("user", .string), ("domain", .string)]) false),
      ("aliases", .nested .dynamic true (.many .map)
        [("since", .plain .number true), ("active", .plain .bool false)])]
    [("quota", .many .list, .mk [("soft", .plain .number false), ("hard", .plain .number true)] []),
      ("archive", .single, .mk [] [])]

/-- The text of a mailbox is read as the mailbox with the parts of its address in ascending
order. -/
theorem ofText_exact_mailbox : mailbox.isWellFormed = true ∧
    mailbox.toJson.depth ≤ Document.maxDepth ∧
      ofText mailbox.toJson.text = .ok mailbox.sorted ∧ mailbox.sorted.same mailbox = true ∧
      mailbox.same mailbox.sorted = true ∧ mailbox.sorted.restates mailbox = true :=
  ⟨by decide, by decide, ofText_exact (by decide) (by decide)⟩

end Block

end ProviderMock
