import ProviderMock.Proofs.Conversion
import ProviderMock.Proofs.FirstFailures

/-!
# Failed conversions

Why a value does not convert, and where.

* **why** — `Value.Refused` are the reasons that lie in a value itself: its kind, the text that it
  is, a field that the type does not have or an attribute that the value does not have.
* **where** — `Value.exists_culprit_of_convert`: the path of every error leads to a value that is
  refused by the type there, and all that is visited before it converts.
-/

namespace ProviderMock

/-! ## Reasons -/

/-- What is said about a value of the wrong kind; every kind is right for the dynamic type. -/
def ConversionCause.wrongKind? : Ty → Option ConversionCause
  | .string => some .stringRequired
  | .number => some .numberRequired
  | .bool => some .boolRequired
  | .dynamic => none
  | .list _ => some .listRequired
  | .set _ => some .setRequired
  | .map _ => some .mapRequired
  | .object _ => some .objectRequired

/-- Whether values of one kind may convert to another one. Numbers and bools have texts, and some
strings are texts of numbers and bools. -/
def Kind.converts : Kind → Kind → Bool
  | .number, .string => true
  | .bool, .string => true
  | .string, .number => true
  | .string, .bool => true
  | kind, wanted => kind = wanted

namespace Value

/-- The kind of a value, if it is not null or unknown. -/
def kind? : Value → Option Kind
  | .null _ => none
  | .unknown _ => none
  | .string _ => some .string
  | .number _ => some .number
  | .bool _ => some .bool
  | .list _ _ => some .sequence
  | .set _ _ => some .sequence
  | .map _ _ => some .record
  | .object _ => some .record

/-- Why a type refuses a value for what the value itself is. -/
inductive Refused : Value → Ty → ConversionCause → Prop where
  | wrongKind {v : Value} {t : Ty} {kind wanted : Kind} {cause : ConversionCause}
      (hv : v.kind? = some kind) (ht : t.kind? = some wanted)
      (h : kind.converts wanted = false) (hcause : ConversionCause.wrongKind? t = some cause) :
      Refused v t cause
  | noNumber {s : String} (h : ∀ x, Double.ofText s.toList = some x → x.isFinite = false) :
      Refused (.string s) .number .noNumber
  | noBool {s : String} (h : s ∉ ["true", "1", "false", "0"]) : Refused (.string s) .bool .noBool
  /-- the first field that the type does not have -/
  | unsupported {v : Value} {attributes : List (String × Ty)} {before after : List (String × Value)}
      {field : String × Value} (hv : v.named? = some (before ++ field :: after))
      (hbefore : ∀ f ∈ before, Fields.has attributes f.1 = true)
      (h : Fields.has attributes field.1 = false) :
      Refused v (.object attributes) (.unsupportedAttribute field.1)
  /-- the first attribute that the value does not have, where all before it convert -/
  | missing {v : Value} {before after : List (String × Ty)} {a : String × Ty}
      {fields : List (String × Value)} (hv : v.named? = some fields)
      (hfields : ∀ f ∈ fields, Fields.has (before ++ a :: after) f.1 = true)
      (hbefore : ∀ b ∈ before, ∃ x w, fields.lookup b.1 = some x ∧ x.convert b.2 = .ok w)
      (h : fields.lookup a.1 = none) :
      Refused v (.object (before ++ a :: after)) (.missingAttribute a.1)

/-! ## One level -/

/-- How values branch: lists and sets into elements, maps and objects under names. -/
def branching : Branching Value where
  elements v := v.elements?.getD []
  named v := v.named?.getD []
  Valid v := v.isWellFormed = true
  valid_of_mem_elements := by
    intro v hv
    cases helements : v.elements? with
    | none => exact nofun
    | some elements => exact isWellFormed_of_mem_elements hv helements
  valid_of_mem_named := by
    intro v hv
    cases hfields : v.named? with
    | none => exact nofun
    | some fields => exact isWellFormed_of_mem_named hv hfields
  distinct_named := by
    intro v hv
    cases v with
    | map t entries => exact (ascending_of_isWellFormed hv).distinct
    | object fields => exact distinct_of_isWellFormed hv
    | _ => exact List.nodup_nil

theorem branching_elements {v : Value} {elements : List Value} (h : v.elements? = some elements) :
    branching.elements v = elements := congrArg (·.getD []) h

theorem branching_named {v : Value} {fields : List (String × Value)} (h : v.named? = some fields) :
    branching.named v = fields := congrArg (·.getD []) h

/-- What there is for a type is there, and converts to it. -/
def Converts (node : Wanted Value) : Prop := ∃ v w, node.2 = some v ∧ v.convert node.1 = .ok w

/-- What there is for a type does not convert to it. -/
def FailsToConvert (node : Wanted Value) (path : Path) (cause : ConversionCause) : Prop :=
  ∃ v, node.2 = some v ∧ v.convert node.1 = .error ⟨path, cause⟩

section Errors

variable {v : Value} {t : Ty} {kind : Kind} {e : ConversionError}

/-- Nulls and unknowns convert to every type, so a value that does not is of a kind. -/
theorem retype_eq_error {f : Value → Except ConversionError Value} (h : v.retype t f = .error e) :
    (∃ kind, v.kind? = some kind) ∧ f v = .error e := by
  cases v with
  | null u | unknown u => cases h
  | _ => exact ⟨⟨_, rfl⟩, h⟩

theorem toStringValue_eq_error (h : v.toStringValue = .error e) (hkind : v.kind? = some kind) :
    e.path = .root ∧ v.Refused .string e.cause := by
  cases v with
  | null u | unknown u => cases hkind
  | string s | number x | bool b => cases h
  | list | set | map | object =>
    obtain rfl := Except.error.inj h
    exact ⟨rfl, .wrongKind rfl rfl rfl rfl⟩

theorem toNumberValue_eq_error (h : v.toNumberValue = .error e) (hkind : v.kind? = some kind) :
    e.path = .root ∧ v.Refused .number e.cause := by
  cases v with
  | null u | unknown u => cases hkind
  | number x => cases h
  | string s =>
    rw [toNumberValue] at h
    split at h
    · rename_i x hx
      split at h
      · cases h
      · rename_i hfinite
        obtain rfl := Except.error.inj h
        refine ⟨rfl, .noNumber fun y hy => ?_⟩
        obtain rfl := Option.some.inj (hx.symm.trans hy)
        exact Bool.eq_false_iff.mpr hfinite
    · rename_i hnone
      obtain rfl := Except.error.inj h
      exact ⟨rfl, .noNumber fun y hy => absurd (hnone.symm.trans hy) nofun⟩
  | bool | list | set | map | object =>
    obtain rfl := Except.error.inj h
    exact ⟨rfl, .wrongKind rfl rfl rfl rfl⟩

theorem toBoolValue_eq_error (h : v.toBoolValue = .error e) (hkind : v.kind? = some kind) :
    e.path = .root ∧ v.Refused .bool e.cause := by
  cases v with
  | null u | unknown u => cases hkind
  | bool b => cases h
  | string s =>
    simp only [toBoolValue] at h
    split at h
    · cases h
    · rename_i htrue
      split at h
      · cases h
      · rename_i hfalse
        obtain rfl := Except.error.inj h
        exact ⟨rfl, .noBool (by simp_all)⟩
  | number | list | set | map | object =>
    obtain rfl := Except.error.inj h
    exact ⟨rfl, .wrongKind rfl rfl rfl rfl⟩

/-- What has no elements but is of a kind is of the wrong kind for a list or set. -/
theorem elementsOr_eq_error {cause : ConversionCause} (h : v.elementsOr cause = .error e)
    (hkind : v.kind? = some kind) (ht : t.kind? = some .sequence)
    (hcause : ConversionCause.wrongKind? t = some cause) :
    e.path = .root ∧ v.Refused t e.cause := by
  cases v with
  | null u | unknown u => cases hkind
  | list | set => cases h
  | string | number | bool | map | object =>
    obtain rfl := Except.error.inj h
    exact ⟨rfl, .wrongKind rfl ht rfl hcause⟩

/-- What has no named parts but is of a kind is of the wrong kind for a map or object. -/
theorem namedOr_eq_error {cause : ConversionCause} (h : v.namedOr cause = .error e)
    (hkind : v.kind? = some kind) (ht : t.kind? = some .record)
    (hcause : ConversionCause.wrongKind? t = some cause) :
    e.path = .root ∧ v.Refused t e.cause := by
  cases v with
  | null u | unknown u => cases hkind
  | map | object => cases h
  | string | number | bool | list | set =>
    obtain rfl := Except.error.inj h
    exact ⟨rfl, .wrongKind rfl ht rfl hcause⟩

/-- A field that the type does not have is refused, the first of them. -/
theorem refuseExtra_eq_error {attributes : List (String × Ty)} {fields : List (String × Value)}
    (h : refuseExtra attributes fields = .error e) (hv : v.named? = some fields) :
    e.path = .root ∧ v.Refused (.object attributes) e.cause := by
  unfold refuseExtra at h
  split at h
  · rename_i extra x hfind
    obtain rfl := Except.error.inj h
    obtain ⟨hnot, before, after, rfl, hbefore⟩ := List.find?_eq_some_iff_append.mp hfind
    exact ⟨rfl, .unsupported hv (by simpa using hbefore) (by simpa using hnot)⟩
  · cases h

theorem requireField_eq_error {fields : List (String × Value)} {name : String}
    (h : requireField fields name = .error e) :
    fields.lookup name = none ∧ .here (.missingAttribute name) = e := by
  unfold requireField at h
  split at h
  · cases h
  · exact ⟨‹_›, Except.error.inj h⟩

/-- The error of a part, one step further, is an error of the whole at its first part that fails. -/
theorem failsToConvert_of_within {x : Value} {step : PathStep}
    (h : (x.convert t).mapError (·.within step) = .error e) :
    ∃ rest, e.path = step :: rest ∧ FailsToConvert (t, some x) rest e.cause := by
  obtain ⟨below, hbelow, rfl⟩ := mapError_eq_error_iff.mp h
  exact ⟨below.path, rfl, x, rfl, hbelow⟩

/-- The elements of a list or set convert in order. -/
theorem convertElements_eq_error {elements : List Value} {u : Ty}
    (h : convertElements (convert t) 0 elements = .error e)
    (hparts : branching.parts (u, some v) =
      (positions 0 elements).map fun part => (part.1, t, some part.2)) :
    FirstPartFails branching.parts Converts FailsToConvert (u, some v) e.path e.cause := by
  rw [convertElements_eq_mapM] at h
  exact firstPartFails_of_mapM h hparts
    (fun part w hw => ⟨part.2, w, rfl, mapError_eq_ok_iff.mp hw⟩)
    (fun part hpart => failsToConvert_of_within hpart)

/-- The entries of a map convert in order. -/
theorem convertEntries_eq_error {entries : List (String × Value)} {u : Ty}
    (h : convertEntries (convert t) entries = .error e)
    (hparts : branching.parts (u, some v) =
      entries.map fun entry => (.key entry.1, t, some entry.2)) :
    FirstPartFails branching.parts Converts FailsToConvert (u, some v) e.path e.cause := by
  rw [convertEntries_eq_mapM] at h
  refine firstPartFails_of_mapM h hparts (fun entry b hb => ?_) (fun entry hentry => ?_)
  · obtain ⟨w, hw, -⟩ := bind_eq_ok_iff.mp hb
    exact ⟨entry.2, w, rfl, mapError_eq_ok_iff.mp hw⟩
  · exact failsToConvert_of_within (bind_pure_eq_error_iff.mp hentry)

/-- The attributes of an object type get their fields in order. The first that gets none is one that
the value does not have, or its field does not convert. -/
theorem convertFields_eq_error {attributes : List (String × Ty)} {fields : List (String × Value)}
    (h : convertFields attributes fields = .error e) (hv : v.named? = some fields)
    (hhas : ∀ f ∈ fields, Fields.has attributes f.1 = true) :
    (e.path = .root ∧ v.Refused (.object attributes) e.cause) ∨
      FirstPartFails branching.parts Converts FailsToConvert (.object attributes, some v)
        e.path e.cause := by
  rw [convertFields_eq_mapM] at h
  obtain ⟨before, a, after, rfl, hbefore, ha⟩ := exists_of_mapM_eq_error h
  replace hbefore : ∀ b ∈ before, ∃ x w, fields.lookup b.1 = some x ∧ x.convert b.2 = .ok w := by
    intro b hb
    obtain ⟨field, hfield⟩ := hbefore b hb
    obtain ⟨w, hw, -⟩ := bind_eq_ok_iff.mp hfield
    obtain ⟨x, hx, hw⟩ := bind_eq_ok_iff.mp hw
    exact ⟨x, w, requireField_eq_ok_iff.mp hx, mapError_eq_ok_iff.mp hw⟩
  rcases bind_eq_error_iff.mp (bind_pure_eq_error_iff.mp ha) with hmissing | ⟨x, hx, ha⟩
  · obtain ⟨hnone, rfl⟩ := requireField_eq_error hmissing
    exact .inl ⟨rfl, .missing hv hhas hbefore hnone⟩
  · obtain ⟨rest, hpath, hfails⟩ := failsToConvert_of_within ha
    let visit (a : String × Ty) : PathStep × Wanted Value := (.attr a.1, a.2, fields.lookup a.1)
    have hparts : branching.parts (.object (before ++ a :: after), some v) =
        before.map visit ++ visit a :: after.map visit := by
      simp [Branching.parts, branching_named hv, visit]
    refine .inr ⟨before.map visit, .attr a.1, (a.2, fields.lookup a.1), after.map visit, rest,
      hparts, fun p hp => ?_, hpath, ?_⟩
    · obtain ⟨b, hb, rfl⟩ := List.mem_map.mp hp
      exact hbefore b hb
    · rwa [requireField_eq_ok_iff.mp hx]

/-- What does not convert is refused by the type itself, or its first part that does not convert
fails. -/
theorem convert_eq_error (h : v.convert t = .error e) :
    (e.path = .root ∧ v.Refused t e.cause) ∨
      FirstPartFails branching.parts Converts FailsToConvert (t, some v) e.path e.cause := by
  cases t with
  | dynamic => cases h
  | string =>
    obtain ⟨⟨kind, hkind⟩, h⟩ := retype_eq_error h
    exact .inl (toStringValue_eq_error h hkind)
  | number =>
    obtain ⟨⟨kind, hkind⟩, h⟩ := retype_eq_error h
    exact .inl (toNumberValue_eq_error h hkind)
  | bool =>
    obtain ⟨⟨kind, hkind⟩, h⟩ := retype_eq_error h
    exact .inl (toBoolValue_eq_error h hkind)
  | list t | set t =>
    obtain ⟨⟨kind, hkind⟩, h⟩ := retype_eq_error h
    rcases bind_eq_error_iff.mp h with h | ⟨elements, helements, h⟩
    · exact .inl (elementsOr_eq_error h hkind rfl rfl)
    · refine .inr (convertElements_eq_error (bind_pure_eq_error_iff.mp h) ?_)
      rw [Branching.parts, branching_elements (elementsOr_eq_ok helements)]
  | map t =>
    obtain ⟨⟨kind, hkind⟩, h⟩ := retype_eq_error h
    rcases bind_eq_error_iff.mp h with h | ⟨entries, hentries, h⟩
    · exact .inl (namedOr_eq_error h hkind rfl rfl)
    · refine .inr (convertEntries_eq_error (bind_pure_eq_error_iff.mp h) ?_)
      rw [Branching.parts, branching_named (namedOr_eq_ok hentries)]
  | object attributes =>
    obtain ⟨⟨kind, hkind⟩, h⟩ := retype_eq_error h
    rcases bind_eq_error_iff.mp h with h | ⟨fields, hfields, h⟩
    · exact .inl (namedOr_eq_error h hkind rfl rfl)
    · replace hfields := namedOr_eq_ok hfields
      rcases bind_eq_error_iff.mp h with h | ⟨_, hextra, h⟩
      · exact .inl (refuseExtra_eq_error h hfields)
      · exact convertFields_eq_error (bind_pure_eq_error_iff.mp h) hfields
          (has_of_refuseExtra hextra)

end Errors

/-! ## All levels -/

/-- Conversion fails in order. -/
theorem failsInOrder_convert :
    FailsInOrder branching.parts branching.ValidWanted Converts FailsToConvert
      (RefusedThere Refused) where
  valid_of_mem := Branching.valid_of_mem_parts
  nodup := Branching.nodup_parts
  cases := by
    rintro ⟨t, x⟩ path cause - ⟨v, rfl, h⟩
    exact (convert_eq_error h).imp_left fun ⟨hpath, hrefused⟩ => ⟨hpath, v, rfl, hrefused⟩

/-- **The path of a failed conversion leads to the first value that is refused.** Followed from the
value and from the wanted type at once, it ends at a value that does not convert to the type there,
for the same cause, at its own root and because of what it is itself. All that is visited before it
converts, at every level of the path. -/
theorem exists_culprit_of_convert {v : Value} {t : Ty} {e : ConversionError}
    (hv : v.isWellFormed = true) (ht : t.isWellFormed = true) (h : v.convert t = .error e) :
    ∃ want part, reach? branching.parts (t, some v) e.path = some (want, some part) ∧
      part.convert want = .error (.here e.cause) ∧ part.Refused want e.cause ∧
      PassesBefore branching.parts Converts (t, some v) e.path := by
  have hvalid : branching.ValidWanted (t, some v) := ⟨ht, fun x hx => Option.some.inj hx ▸ hv⟩
  obtain ⟨want, part, hreach, ⟨_, hsome, hpart⟩, hrefused, hpasses⟩ :=
    failsInOrder_convert.exists_refused hvalid ⟨v, rfl, h⟩
  obtain rfl := Option.some.inj hsome
  exact ⟨want, part, hreach, hpart, hrefused, hpasses⟩

/-! ### A fleet -/

/-- What there is to know about ships, by call sign. -/
def fleet : Ty :=
  .map (.object [("flag", .string), ("decks", .list (.set .number)), ("crew", .object [])])

/-- Ships as they are written without a type. The first is in order, though it is a map and its flag
a bool. The second has texts on a deck that write no number, and its crew is a list: the fields come
in the order of the type, and so the decks fail first. The third is no ship at all. -/
def sketchedFleet : Value :=
  .object [
    ("PA", .map .dynamic [
      ("crew", .null .string), ("decks", .set .string []), ("flag", .bool true)]),
    ("PB", .object [
      ("crew", .list .dynamic []),
      ("decks", .list .dynamic [
        .unknown .bool, .list .string [.string "1e3", .string "seven", .string "eight"]]),
      ("flag", .number .nan)]),
    ("PC", .bool false)]

/-- The fleet fails at the text on the deck, and so does the text by itself. -/
theorem exists_culprit_of_convert_sketchedFleet :
    sketchedFleet.isWellFormed = true ∧ fleet.isWellFormed = true ∧
      sketchedFleet.convert fleet =
        .error ⟨[.key "PB", .attr "decks", .index 1, .index 1], .noNumber⟩ ∧
      reach? branching.parts (fleet, some sketchedFleet)
        [.key "PB", .attr "decks", .index 1, .index 1] = some (.number, some (.string "seven")) ∧
      (string "seven").convert .number = .error (.here .noNumber) ∧
      (string "seven").Refused .number .noNumber ∧
      PassesBefore branching.parts Converts (fleet, some sketchedFleet)
        [.key "PB", .attr "decks", .index 1, .index 1] := by
  have h : sketchedFleet.convert fleet =
      .error ⟨[.key "PB", .attr "decks", .index 1, .index 1], .noNumber⟩ := by rfl
  obtain ⟨want, part, hreach, hpart, hrefused, hpasses⟩ :=
    exists_culprit_of_convert (by decide) (by decide) h
  have hculprit : reach? branching.parts (fleet, some sketchedFleet)
      [.key "PB", .attr "decks", .index 1, .index 1] =
        some (.number, some (.string "seven")) := by rfl
  obtain ⟨rfl, hsome⟩ := Prod.mk.inj (Option.some.inj (hreach.symm.trans hculprit))
  obtain rfl := Option.some.inj hsome
  exact ⟨by decide, by decide, h, hculprit, hpart, hrefused, hpasses⟩

end Value

end ProviderMock
