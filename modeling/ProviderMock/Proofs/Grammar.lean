import ProviderMock.Proofs.Decoding
import ProviderMock.Proofs.Sameness

/-!
# The JSON of a type

Which JSON is read at a type without dynamic parts, and what is left of it when the value is written
again.

* **grammar** — `Json.Fits` says which JSON a type accepts. By `fits_of_decode` and
  `exists_decode_of_fits` just this is read.
* **normal form** — `Json.normalForm` reads every number as a double, writes out absent attributes
  and leaves out of a set what is read as a value that was there before. `toJson_of_decode`: it is
  what the value that is read is written as.
-/

namespace ProviderMock

open Fields (Aligned)

/-! ## First occurrences -/

section Firsts

variable {α β : Type}

/-- The members of a list that nothing before them repeats. -/
def firsts (repeats : α → α → Bool) (before : List α) : List α → List α
  | [] => []
  | x :: rest =>
    if before.any (repeats · x) then firsts repeats (before ++ [x]) rest
    else x :: firsts repeats (before ++ [x]) rest

variable {R : α → β → Prop} {r : α → α → Bool} {s : β → β → Bool} {before xs : List α}
  {others ys : List β}

theorem any_eq_of_forall₂ (h : List.Forall₂ R before others) {p : α → Bool} {q : β → Bool}
    (hpq : ∀ x y, R x y → p x = q y) : before.any p = others.any q := by
  induction h with
  | nil => rfl
  | cons hxy _ ih => rw [List.any_cons, List.any_cons, hpq _ _ hxy, ih]

theorem sublist_firsts (repeats : α → α → Bool) (before xs : List α) :
    (firsts repeats before xs).Sublist xs := by
  induction xs generalizing before with
  | nil => exact .slnil
  | cons x rest ih =>
    rw [firsts]
    split
    · exact (ih _).cons x
    · exact (ih _).cons_cons x

/-- Lists that are related one by one have related first occurrences if they repeat alike. -/
theorem forall₂_firsts (h : List.Forall₂ R xs ys) (hbefore : List.Forall₂ R before others)
    (hrs : ∀ x x' y y', R x y → R x' y' → r x x' = s y y') :
    List.Forall₂ R (firsts r before xs) (firsts s others ys) := by
  induction h generalizing before others with
  | nil => exact .nil
  | @cons x y xs ys hxy _ ih =>
    have hany : before.any (r · x) = others.any (s · y) :=
      any_eq_of_forall₂ hbefore fun _ _ h => hrs _ _ _ _ h hxy
    have hrest := ih (List.rel_append hbefore (.cons hxy .nil))
    rw [firsts, firsts, hany]
    split
    · exact hrest
    · exact .cons hxy hrest

end Firsts

/-- The elements of a set are the first occurrences, also of what is not kept: what equals something
that is left out equals something that is kept. -/
theorem Value.distinct_eq_firsts (elements : List Value) :
    distinct elements = firsts same [] elements := by
  -- from any kept elements on that hold what they were chosen from
  have aux : ∀ elements kept before : List Value,
      (∀ v, kept.any (·.same v) = before.any (·.same v)) →
      elements.foldl (fun kept e => if kept.any (·.same e) then kept else kept ++ [e]) kept =
        kept ++ firsts same before elements := by
    intro elements
    induction elements with
    | nil => exact fun kept _ _ => (List.append_nil kept).symm
    | cons e rest ih =>
      intro kept before h
      rw [List.foldl_cons, firsts, ← h e]
      split
      · rename_i hany
        refine ih kept (before ++ [e]) fun v => ?_
        rw [List.any_append, ← h v, Bool.eq_iff_iff, Bool.or_eq_true]
        refine ⟨.inl, ?_⟩
        rintro (hv | hsame)
        · exact hv
        · obtain ⟨k, hk, hke⟩ := List.any_eq_true.mp hany
          exact List.any_eq_true.mpr ⟨k, hk, same_trans hke (by simpa using hsame)⟩
      · rw [ih (kept ++ [e]) (before ++ [e]) fun v => by rw [List.any_append, List.any_append, h v]]
        simp
  exact aux elements [] [] fun _ => rfl

/-! ## Grammar -/

namespace Json

/-- JSON that a type accepts: null everywhere, and else what has the parts of the type. An object
may lack attributes of its type but has no other members. -/
inductive Fits : Json → Ty → Prop where
  | null (t : Ty) : Fits .null t
  | string (s : String) : Fits (.string s) .string
  | number (n : Json.Number) : Fits (.number n) .number
  | bool (b : Bool) : Fits (.bool b) .bool
  | list {e : Ty} {items : List Json} (h : ∀ item ∈ items, Fits item e) :
      Fits (.array items) (.list e)
  | set {e : Ty} {items : List Json} (h : ∀ item ∈ items, Fits item e) :
      Fits (.array items) (.set e)
  | map {e : Ty} {members : List (String × Json)} (h : ∀ m ∈ members, Fits m.2 e) :
      Fits (.object members) (.map e)
  | object {attributes : List (String × Ty)} {members : List (String × Json)}
      (hnames : ∀ m ∈ members, Fields.has attributes m.1 = true)
      (h : ∀ m ∈ members, ∀ t, attributes.lookup m.1 = some t → Fits m.2 t) :
      Fits (.object members) (.object attributes)

/-- Whether an item is read at a type as the same value as an earlier one. -/
def readAlike (t : Ty) (earlier item : Json) : Bool :=
  match Value.decode t earlier, Value.decode t item with
  | .ok v, .ok w => v.same w
  | _, _ => false

mutual

/-- JSON with every number as a double, with every attribute of objects, null where it was absent,
and without the items of sets that are read as the same value as an earlier one. -/
def normalForm : Ty → Json → Json
  | .number, .number n => ofDouble n.toDouble
  | .list e, .array items => .array (items.map (normalForm e))
  | .set e, .array items => .array ((firsts (readAlike e) [] items).map (normalForm e))
  | .map e, .object members => .object (Fields.mapValues (normalForm e) members)
  | .object attributes, .object members => ofMembers (normalMembers attributes members)
  | _, json => json
termination_by structural t => t

/-- The member of every attribute in normal form. -/
def normalMembers : List (String × Ty) → List (String × Json) → List (String × Json)
  | [], _ => []
  | (name, t) :: rest, members =>
    (name, normalForm t ((members.lookup name).getD .null)) :: normalMembers rest members
termination_by structural attributes => attributes

end

theorem normalForm_null (t : Ty) : normalForm t .null = .null := by
  cases t <;> rfl

end Json

open Value

/-- What is read at a type fits it. -/
theorem fits_of_decode {t : Ty} {json : Json} {v : Value} (h : decode t json = .ok v)
    (hstatic : t.isStatic = true) (hdata : json.isData = true) : json.Fits t := by
  revert hstatic hdata
  apply decode_induction
    (P := fun t json _ => t.isStatic = true → json.isData = true → json.Fits t) h
  case dynamic => exact fun _ _ _ hstatic _ => nomatch hstatic
  case null => exact fun want _ _ => .null want
  case string => exact fun s _ _ => .string s
  case number => exact fun n _ _ => .number n
  case bool => exact fun b _ _ => .bool b
  case list =>
    intro e items vs hvs hstatic hdata
    refine .list fun item hitem => ?_
    obtain ⟨v, -, hread⟩ := exists_mem_right hvs hitem
    exact hread hstatic (Json.isData_array_iff.mp hdata item hitem)
  case set =>
    intro e items vs hvs hstatic hdata
    refine .set fun item hitem => ?_
    obtain ⟨v, -, hread⟩ := exists_mem_right hvs hitem
    exact hread hstatic (Json.isData_array_iff.mp hdata item hitem)
  case map =>
    intro e members vs hvs hstatic hdata
    refine .map fun m hm => ?_
    obtain ⟨v, -, -, hread⟩ := exists_mem_right hvs hm
    exact hread hstatic ((Json.isData_object_iff.mp hdata).2 m hm)
  case object =>
    intro attributes members vs hnames hvs hstatic hdata
    obtain ⟨hascending, hall⟩ := Json.isData_object_iff.mp hdata
    refine .object hnames fun m hm t ht => ?_
    obtain ⟨v, -, -, hread⟩ := exists_mem_right hvs (Fields.mem_of_lookup ht)
    rw [Fields.lookup_of_mem hascending.distinct hm] at hread
    exact hread (Ty.isStatic_object_iff.mp hstatic _ (Fields.mem_of_lookup ht)) (hall m hm)

/-- What fits a type is read at it. -/
theorem exists_decode_of_fits {t : Ty} {json : Json} (h : json.Fits t)
    (ht : t.isWellFormed = true) (hstatic : t.isStatic = true) : ∃ v, decode t json = .ok v := by
  induction h with
  | null t => exact ⟨_, decode_null t⟩
  | string s | number n | bool b => exact ⟨_, rfl⟩
  | list _ ih =>
    obtain ⟨vs, hvs⟩ := exists_forall₂ fun item hitem => ih item hitem ht hstatic
    exact ⟨_, decode_list hvs⟩
  | set _ ih =>
    obtain ⟨vs, hvs⟩ := exists_forall₂ fun item hitem => ih item hitem ht hstatic
    exact ⟨_, decode_set hvs⟩
  | @map e members _ ih =>
    obtain ⟨vs, hvs⟩ : ∃ vs, Aligned (fun _ item v => decode e item = .ok v) members vs :=
      Fields.exists_aligned fun m hm => ih m hm ht hstatic
    exact ⟨_, decode_map hvs⟩
  | @object attributes members hnames _ ih =>
    obtain ⟨hdistinct, hall⟩ := Ty.isWellFormed_object_iff.mp ht
    rw [Ty.isStatic_object_iff] at hstatic
    obtain ⟨vs, hvs⟩ : ∃ vs, Aligned
        (fun name want v => decode want ((members.lookup name).getD .null) = .ok v)
        attributes vs := by
      refine Fields.exists_aligned fun a ha => ?_
      cases hlookup : members.lookup a.1 with
      | none => exact ⟨_, decode_null a.2⟩
      | some item =>
        exact ih (a.1, item) (Fields.mem_of_lookup hlookup) a.2
          (Fields.lookup_of_mem hdistinct ha) (hall a ha) (hstatic a ha)
    exact ⟨_, decode_object hnames hvs⟩

/-- Members in normal form are those of the values that are read. -/
theorem Json.normalMembers_eq {attributes : List (String × Ty)} {members : List (String × Json)}
    {vs : List (String × Value)}
    (h : Aligned (fun name want v => v.toJson =
      normalForm want ((members.lookup name).getD .null)) attributes vs) :
    normalMembers attributes members = Fields.mapValues toJson vs := by
  induction h with
  | nil => rfl
  | @cons a v attributes vs hv _ ih =>
    obtain ⟨name, want⟩ := a
    obtain ⟨other, v⟩ := v
    obtain ⟨rfl, hv⟩ := hv
    rw [normalMembers, ih, ← hv]
    rfl

/-- **What is read is written in normal form.** -/
theorem toJson_of_decode {t : Ty} {json : Json} {v : Value} (h : decode t json = .ok v)
    (hstatic : t.isStatic = true) (hdata : json.isData = true) :
    v.toJson = json.normalForm t := by
  revert hstatic hdata
  -- which items of a set repeat earlier ones depends on what they are read as
  apply decode_induction_of_read (P := fun t json v => t.isStatic = true → json.isData = true →
    v.toJson = json.normalForm t) h
  case dynamic => exact fun _ _ _ hstatic _ => nomatch hstatic
  case null => exact fun want _ _ => (Json.normalForm_null want).symm
  case string => exact fun s _ _ => rfl
  case number => exact fun n _ _ => rfl
  case bool => exact fun b _ _ => rfl
  case list =>
    intro e items vs hvs hstatic hdata
    rw [toJson, Json.normalForm, elementsToJson_eq_map]
    refine congrArg Json.array (map_eq_map_of_forall₂ ?_).symm
    exact forall₂_imp_of_mem hvs fun item hitem v _ h =>
      (h.2 hstatic (Json.isData_array_iff.mp hdata item hitem)).symm
  case set =>
    intro e items vs hvs hstatic hdata
    have hfirsts := forall₂_firsts (r := Json.readAlike e) (s := same) hvs .nil
      fun x x' y y' h h' => by simp only [Json.readAlike, h.1, h'.1]
    rw [Value.setOf, distinct_eq_firsts, toJson, Json.normalForm, elementsToJson_eq_map]
    refine congrArg Json.array (map_eq_map_of_forall₂ ?_).symm
    exact forall₂_imp_of_mem hfirsts fun item hitem v _ h => (h.2 hstatic
      (Json.isData_array_iff.mp hdata item ((sublist_firsts _ _ _).subset hitem))).symm
  case map =>
    intro e members vs hvs hstatic hdata
    obtain ⟨hascending, hall⟩ := Json.isData_object_iff.mp hdata
    have hmembers : Fields.mapValues (Json.normalForm e) members = Fields.mapValues toJson vs :=
      Aligned.mapValues_eq (hvs.imp fun _ _ _ hmem h => (h.2 hstatic (hall _ hmem)).symm)
    have hascending' : Entries.Ascending (Fields.mapValues (Json.normalForm e) members) := by
      rw [Entries.Ascending, Fields.names_mapValues]
      exact hascending
    rw [mapOf, Entries.ofList_eq_self (Entries.ascending_of_aligned hvs hascending), toJson,
      Json.normalForm, fieldsToJson_eq_mapValues, ← hmembers, Json.ofMembers,
      Entries.ofList_eq_self hascending']
  case object =>
    intro attributes members vs _ hvs hstatic hdata
    obtain ⟨-, hall⟩ := Json.isData_object_iff.mp hdata
    rw [toJson, Json.normalForm, fieldsToJson_eq_mapValues, Json.normalMembers_eq]
    exact hvs.imp fun name want v hmem h =>
      h.2 (Ty.isStatic_object_iff.mp hstatic _ hmem) (Json.isData_lookup hall name)

/-- **What is read at a type.** At a well-formed type without dynamic parts just the data that fits
the type is read. The value conforms to the type, is known, and is written as the normal form of
what was read. -/
theorem decode_fits_normalForm {t : Ty} (ht : t.isWellFormed = true) (hstatic : t.isStatic = true)
    {json : Json} (hdata : json.isData = true) :
    ((∃ v, decode t json = .ok v) ↔ json.Fits t) ∧
      ∀ v, decode t json = .ok v →
        Conforms v t ∧ v.isWhollyKnown = true ∧ v.toJson = json.normalForm t := by
  refine ⟨⟨?_, fun h => exists_decode_of_fits h ht hstatic⟩, fun v hv => ⟨?_, ?_, ?_⟩⟩
  · rintro ⟨v, hv⟩
    exact fits_of_decode hv hstatic hdata
  · exact conforms_of_decode hv ht hstatic
  · rw [← everywhere_not_isUnknown]
    exact robust_not_isUnknown.decode hv ht hdata
  · exact toJson_of_decode hv hstatic hdata

/-! ### Disks -/

/-- Sets of disks with a size and tags. -/
def disks : Ty := .set (.object [("tags", .set .string), ("size", .number)])

/-- A disk that is written twice, with its tags in another order and its size as a whole number and
as a double, one without a size, and two that are null. -/
def disksJson : Json :=
  .array [
    .object [("size", .number (.int 40 (by decide))), ("tags", .array [.string "a", .string "b"])],
    .object [("size", .number (.double ⟨0x4044000000000000⟩ (by decide))),
      ("tags", .array [.string "b", .string "a", .string "b"])],
    .object [("tags", .null)], .null, .null]

example : disksJson.normalForm disks = .array [
    .object [("size", .number (.double ⟨0x4044000000000000⟩ (by decide))),
      ("tags", .array [.string "a", .string "b"])],
    .object [("size", .null), ("tags", .null)], .null] := by rfl

/-- The disks fit their type, are read, and are written in normal form. -/
theorem decode_fits_normalForm_disks :
    disks.isWellFormed = true ∧ disks.isStatic = true ∧ disksJson.isData = true ∧
      disksJson.Fits disks ∧ ∃ v, decode disks disksJson = .ok v ∧
        Conforms v disks ∧ v.isWhollyKnown = true ∧ v.toJson = disksJson.normalForm disks := by
  have hdata : disksJson.isData = true := by decide
  have h := decode_fits_normalForm (t := disks) (by decide) (by decide) hdata
  obtain ⟨v, hv⟩ : ∃ v, decode disks disksJson = .ok v := ⟨_, rfl⟩
  exact ⟨by decide, by decide, hdata, h.1.mp ⟨v, hv⟩, v, hv, h.2 v hv⟩

end ProviderMock
