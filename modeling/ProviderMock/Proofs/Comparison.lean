import ProviderMock.Proofs.Aligned
import ProviderMock.Value

/-!
# Comparing values

What it means that one value is equal to another. Lists, maps and objects compare their parts the
way they are compared themselves. Sets compare theirs the other way round: an element is found in
the second set if something there is equal to it.

* **sides** — `Value.sameTurned_not`: to turn a comparison is to exchange its sides.
* **what is equal** — `Value.same_set_iff` and its like, one for each kind of value, say when a
  value of this kind is equal to another one. Everything else about sameness is derived from them.
* **two values at once** — `Value.pair_induction`, for what can be said of two values if it can be
  said of their parts in either order.
-/

namespace ProviderMock

namespace Value

open Fields (Aligned)

/-! ## Sides -/

theorem sided_not {α : Type} (compare : α → α → Bool) (turned : Bool) (a b : α) :
    sided compare (!turned) b a = sided compare turned a b := by
  cases turned <;> rfl

theorem sameMembers_iff {as bs : List Value} :
    sameMembers as bs = true ↔ ∀ a ∈ as, ∃ b ∈ bs, sameTurned true a b = true := by
  induction as with
  | nil => simp [sameMembers]
  | cons a rest ih => simp [sameMembers, ih]

theorem hasMember_iff {as : List Value} {b : Value} :
    hasMember as b = true ↔ ∃ a ∈ as, sameTurned false a b = true := by
  induction as with
  | nil => simp [hasMember]
  | cons a rest ih => simp [hasMember, ih]

theorem sameFields_iff {as bs : List (String × Value)} :
    sameFields as bs = true ↔
      ∀ a ∈ as, ∃ b, bs.lookup a.1 = some b ∧ sameTurned false a.2 b = true := by
  induction as with
  | nil => simp [sameFields]
  | cons a rest ih =>
    rw [sameFields, Bool.and_eq_true, ih, List.forall_mem_cons]
    cases bs.lookup a.1 <;> simp

theorem hasField_iff {as : List (String × Value)} {name : String} {b : Value} :
    hasField as name b = true ↔ ∃ a, as.lookup name = some a ∧ sameTurned true a b = true := by
  induction as with
  | nil => simp [hasField]
  | cons a rest ih =>
    rw [hasField, Fields.lookup_cons]
    split
    · simp
    · exact ih

/-- The elements of sets turn if one by one they do. -/
theorem sameMembers_eq_all {as bs : List Value}
    (h : ∀ a ∈ as, ∀ b ∈ bs, sameTurned true a b = sameTurned false b a) :
    sameMembers as bs = as.all (hasMember bs) := by
  rw [Bool.eq_iff_iff, sameMembers_iff, List.all_eq_true]
  simp only [hasMember_iff]
  refine forall₂_congr fun a ha => exists_congr fun b => and_congr_right fun hb => ?_
  rw [h a ha b hb]

/-- The fields of objects turn if one by one they do. -/
theorem sameFields_eq_all {as bs : List (String × Value)}
    (h : ∀ a ∈ as, ∀ b ∈ bs, sameTurned false a.2 b.2 = sameTurned true b.2 a.2) :
    sameFields as bs = as.all fun field => hasField bs field.1 field.2 := by
  rw [Bool.eq_iff_iff, sameFields_iff, List.all_eq_true]
  simp only [hasField_iff]
  refine forall₂_congr fun a ha => exists_congr fun b => and_congr_right fun hb => ?_
  rw [h a ha _ (Fields.mem_of_lookup hb)]

/-- Lists turn if their elements do. -/
theorem sameElements_not {turned : Bool} {as : List Value}
    (h : ∀ a ∈ as, ∀ b, sameTurned (!turned) b a = sameTurned turned a b) (bs : List Value) :
    sameElements (!turned) bs as = sameElements turned as bs := by
  induction as generalizing bs with
  | nil => cases bs <;> rfl
  | cons a rest ih =>
    obtain ⟨hfirst, hrest⟩ := List.forall_mem_cons.mp h
    cases bs with
    | nil => rfl
    | cons b more => rw [sameElements, sameElements, hfirst b, ih hrest more]

/-- Entries turn if their values do. -/
theorem sameEntries_not {turned : Bool} {as : List (String × Value)}
    (h : ∀ a ∈ as, ∀ b, sameTurned (!turned) b a.2 = sameTurned turned a.2 b)
    (bs : List (String × Value)) : sameEntries (!turned) bs as = sameEntries turned as bs := by
  induction as generalizing bs with
  | nil => cases bs <;> rfl
  | cons a rest ih =>
    obtain ⟨hfirst, hrest⟩ := List.forall_mem_cons.mp h
    cases bs with
    | nil => rfl
    | cons b more => rw [sameEntries, sameEntries, hfirst b.2, ih hrest more, Bool.beq_comm]

/-- **To turn a comparison is to exchange its sides.** -/
theorem sameTurned_not (turned : Bool) (a b : Value) :
    sameTurned (!turned) b a = sameTurned turned a b := by
  induction a using Value.induction generalizing turned b with
  | null t =>
    cases b with
    | null u => exact sided_not Ty.same turned t u
    | _ => cases turned <;> rfl
  | unknown t =>
    cases b with
    | unknown u => exact sided_not Ty.same turned t u
    | _ => cases turned <;> rfl
  | string s =>
    cases b with
    | string r => exact Bool.beq_comm
    | _ => cases turned <;> rfl
  | number x =>
    cases b with
    | number y => exact sided_not Double.same turned x y
    | _ => cases turned <;> rfl
  | bool x =>
    cases b with
    | bool y => exact Bool.beq_comm
    | _ => cases turned <;> rfl
  | list t as ih =>
    cases b with
    | list u bs =>
      rw [sameTurned, sameTurned, sided_not, sameElements_not fun a ha b => ih a ha turned b]
    | _ => cases turned <;> rfl
  | set t as ih =>
    cases b with
    | set u bs =>
      cases turned with
      | false =>
        rw [Bool.not_false, sameTurned, sameTurned,
          sameMembers_eq_all fun a ha b _ => (ih a ha true b).symm]
      | true =>
        rw [Bool.not_true, sameTurned, sameTurned,
          sameMembers_eq_all fun b _ a ha => ih a ha false b]
    | _ => cases turned <;> rfl
  | map t as ih =>
    cases b with
    | map u bs =>
      rw [sameTurned, sameTurned, sided_not, sameEntries_not fun a ha b => ih a ha turned b]
    | _ => cases turned <;> rfl
  | object as ih =>
    cases b with
    | object bs =>
      cases turned with
      | false =>
        rw [Bool.not_false, sameTurned, sameTurned,
          sameFields_eq_all fun a ha b _ => (ih a ha false b.2).symm]
      | true =>
        rw [Bool.not_true, sameTurned, sameTurned,
          sameFields_eq_all fun b _ a ha => ih a ha true b.2]
    | _ => cases turned <;> rfl

/-- A turned comparison compares the second value with the first. -/
theorem sameTurned_true_eq (a b : Value) : sameTurned true a b = b.same a :=
  sameTurned_not false b a

/-! ## What is equal -/

variable {v : Value}

theorem same_null_iff {t : Ty} :
    (Value.null t).same v = true ↔ ∃ u, v = .null u ∧ t.same u = true := by
  cases v <;> simp [same, sameTurned, sided]

theorem same_unknown_iff {t : Ty} :
    (Value.unknown t).same v = true ↔ ∃ u, v = .unknown u ∧ t.same u = true := by
  cases v <;> simp [same, sameTurned, sided]

theorem same_string_iff {s : String} : (Value.string s).same v = true ↔ v = .string s := by
  cases v <;> simp [same, sameTurned]
  exact eq_comm

theorem same_number_iff {x : Double} :
    (Value.number x).same v = true ↔ ∃ y, v = .number y ∧ x.same y = true := by
  cases v <;> simp [same, sameTurned, sided]

theorem same_bool_iff {b : Bool} : (Value.bool b).same v = true ↔ v = .bool b := by
  cases v <;> simp [same, sameTurned]
  exact eq_comm

/-- Lists have equal elements in the same order if they are related one by one. -/
theorem sameElements_iff {as bs : List Value} :
    sameElements false as bs = true ↔ List.Forall₂ (fun a b => a.same b = true) as bs := by
  induction as generalizing bs with
  | nil => cases bs <;> simp [sameElements]
  | cons a rest ih => cases bs <;> simp [sameElements, ih, same]

/-- Entries are equal in the same order if they are aligned with equal values. -/
theorem sameEntries_iff {as bs : List (String × Value)} :
    sameEntries false as bs = true ↔ Aligned (fun _ a b => a.same b = true) as bs := by
  induction as generalizing bs with
  | nil => cases bs <;> simp [sameEntries, Aligned]
  | cons a rest ih => cases bs <;> simp [sameEntries, Aligned, ih, and_assoc, same]

theorem same_list_iff {t : Ty} {as : List Value} :
    (Value.list t as).same v = true ↔ ∃ u bs, v = .list u bs ∧ t.same u = true ∧
      List.Forall₂ (fun a b => a.same b = true) as bs := by
  cases v <;> simp [same, sameTurned, sided, sameElements_iff]

theorem same_set_iff {t : Ty} {as : List Value} :
    (Value.set t as).same v = true ↔ ∃ u bs, v = .set u bs ∧ t.same u = true ∧
      as.length = bs.length ∧ ∀ a ∈ as, ∃ b ∈ bs, b.same a = true := by
  cases v <;> simp [same, sameTurned, sameMembers_iff, sameTurned_true_eq, and_assoc]

theorem same_map_iff {t : Ty} {as : List (String × Value)} :
    (Value.map t as).same v = true ↔ ∃ u bs, v = .map u bs ∧ t.same u = true ∧
      Aligned (fun _ a b => a.same b = true) as bs := by
  cases v <;> simp [same, sameTurned, sided, sameEntries_iff]

theorem same_object_iff {as : List (String × Value)} :
    (Value.object as).same v = true ↔ ∃ bs, v = .object bs ∧ as.length = bs.length ∧
      ∀ a ∈ as, ∃ b, bs.lookup a.1 = some b ∧ a.2.same b = true := by
  cases v <;> simp [same, sameTurned, sameFields_iff]

/-! ## Two values at once -/

/-- The values that are directly in a value: elements, and the values of entries and fields. -/
def parts : Value → List Value
  | .list _ elements => elements
  | .set _ elements => elements
  | .map _ entries => entries.map Prod.snd
  | .object fields => fields.map Prod.snd
  | _ => []

theorem parts_of_elements {v : Value} {elements : List Value} (h : v.elements? = some elements) :
    v.parts = elements := by
  cases v with
  | list t es | set t es => exact Option.some.inj h
  | _ => cases h

theorem parts_of_named {v : Value} {fields : List (String × Value)} (h : v.named? = some fields) :
    v.parts = fields.map Prod.snd := by
  cases v with
  | map t fs | object fs => exact congrArg (List.map Prod.snd) (Option.some.inj h)
  | _ => cases h

/-- A property of every value if it passes from the parts of a value to the value. -/
@[elab_as_elim]
theorem parts_induction {P : Value → Prop} (step : ∀ v, (∀ w ∈ v.parts, P w) → P v) (v : Value) :
    P v := by
  induction v using Value.induction with
  | list t elements ih => exact step (.list t elements) ih
  | set t elements ih => exact step (.set t elements) ih
  | map t entries ih => exact step (.map t entries) (List.forall_mem_map.mpr ih)
  | object fields ih => exact step (.object fields) (List.forall_mem_map.mpr ih)
  | _ => exact step _ nofun

/-- A property of every two values if it passes from parts of both, in either order, to the
values. -/
@[elab_as_elim]
theorem pair_induction {P : Value → Value → Prop}
    (step : ∀ a b, (∀ x ∈ a.parts, ∀ y ∈ b.parts, P x y ∧ P y x) → P a b) (a b : Value) :
    P a b := by
  have both : ∀ b, P a b ∧ P b a := by
    induction a using parts_induction with
    | step a ih =>
      intro b
      exact ⟨step a b fun x hx y _ => ih x hx y, step b a fun y _ x hx => (ih x hx y).symm⟩
  exact (both b).1

end Value

end ProviderMock
