import ProviderMock.Proofs.Decoding
import ProviderMock.Proofs.FirstFailures

/-!
# Failed decodings

Why JSON is not read as a value, and where.

* **at a type** — the reasons lie in one tree: `Json.Refused` says that it is of the wrong kind or
  has a member that the type does not have.
* **without a type** — the only reason is that the values of an array do not convert to one type.
  `Json.Mixed` says which item is the first that does not.
* **where** — `Value.exists_culprit_of_decode_and_infer`: the path of every error leads to such a
  tree, and all that is visited before it is read.
-/

namespace ProviderMock

/-! ## Reasons -/

/-- What is said about JSON of the wrong kind; every kind is right for the dynamic type. -/
def DecodeCause.wrongKind? : Ty → Option DecodeCause
  | .string => some .stringRequired
  | .number => some .numberRequired
  | .bool => some .boolRequired
  | .dynamic => none
  | .list _ => some .listRequired
  | .set _ => some .setRequired
  | .map _ => some .mapRequired
  | .object _ => some .objectRequired

namespace Json

/-- The kind of a JSON tree, if it is not null. -/
def kind? : Json → Option Kind
  | .null => none
  | .bool _ => some .bool
  | .number _ => some .number
  | .string _ => some .string
  | .array _ => some .sequence
  | .object _ => some .record

/-- Why a type refuses a JSON tree for what the tree itself is. -/
inductive Refused : Json → Ty → DecodeCause → Prop where
  | wrongKind {json : Json} {t : Ty} {kind wanted : Kind} {cause : DecodeCause}
      (hjson : json.kind? = some kind) (ht : t.kind? = some wanted) (h : kind ≠ wanted)
      (hcause : DecodeCause.wrongKind? t = some cause) : Refused json t cause
  /-- the first member that the type does not have -/
  | unsupported {attributes : List (String × Ty)} {before after : List (String × Json)}
      {member : String × Json} (hbefore : ∀ m ∈ before, Fields.has attributes m.1 = true)
      (h : Fields.has attributes member.1 = false) :
      Refused (.object (before ++ member :: after)) (.object attributes)
        (.unsupportedAttribute member.1)

/-- Where an array is mixed. Every item has a value by itself; `t` is the type of the first of the
values that is not null, and the value at `i` is the first that does not convert to it. -/
inductive Mixed : Json → Nat → Ty → Prop where
  | mk {items : List Json} {before after : List Value} {v first : Value}
      (hitems : List.Forall₂ (fun item v => Value.infer item = .ok v) items (before ++ v :: after))
      (hfirst : (before ++ v :: after).find? (fun v => !v.isNull) = some first)
      (hbefore : ∀ u ∈ before, ∃ w, u.convert first.ty = .ok w)
      (hv : ∀ w, v.convert first.ty ≠ .ok w) : Mixed (.array items) before.length first.ty

/-- The items of an array. -/
def items : Json → List Json
  | .array items => items
  | _ => []

/-- The members of an object. -/
def members : Json → List (String × Json)
  | .object members => members
  | _ => []

/-- How JSON branches: arrays into items, objects under names. -/
def branching : Branching Json where
  elements := items
  named := members
  Valid json := json.isData = true
  valid_of_mem_elements := by
    intro json hjson
    cases json with
    | array items => exact isData_array_iff.mp hjson
    | _ => exact nofun
  valid_of_mem_named := by
    intro json hjson
    cases json with
    | object members => exact (isData_object_iff.mp hjson).2
    | _ => exact nofun
  distinct_named := by
    intro json hjson
    cases json with
    | object members => exact (isData_object_iff.mp hjson).1.distinct
    | _ => exact List.nodup_nil

/-- The parts of a JSON tree in order: items by position, members by name. -/
def parts : Json → List (PathStep × Json)
  | .array items => positions 0 items
  | .object members => members.map fun member => (.attr member.1, member.2)
  | _ => []

/-- The parts of data are data. -/
theorem isData_of_mem_parts {json : Json} (h : json.isData = true) :
    ∀ part ∈ json.parts, part.2.isData = true := by
  cases json with
  | array items => exact fun part hpart => isData_array_iff.mp h _ (mem_of_mem_positions hpart)
  | object members =>
    intro part hpart
    obtain ⟨member, hmember, rfl⟩ := List.mem_map.mp hpart
    exact (isData_object_iff.mp h).2 member hmember
  | _ => exact nofun

/-- No two parts of data are at one step. -/
theorem nodup_parts {json : Json} (h : json.isData = true) : (json.parts.map Prod.fst).Nodup := by
  cases json with
  | array items => exact nodup_positions 0 items
  | object members =>
    rw [parts, List.map_map]
    exact nodup_steps (fun _ _ => PathStep.attr.inj) (isData_object_iff.mp h).1.distinct
  | _ => exact .nil

end Json

/-- The parts that a type without dynamic parts wants are wanted at such types. -/
theorem Branching.isStatic_of_mem_parts {α : Type} {branching : Branching α} {node : Wanted α}
    (h : node.1.isStatic = true) : ∀ part ∈ branching.parts node, part.2.1.isStatic = true := by
  obtain ⟨t, _ | x⟩ := node
  · cases t <;> exact nofun
  intro part hpart
  cases t with
  | list e | set e | map e =>
    obtain ⟨_, -, rfl⟩ := List.mem_map.mp hpart
    exact h
  | object attributes =>
    obtain ⟨a, ha, rfl⟩ := List.mem_map.mp hpart
    exact Ty.isStatic_object_iff.mp h a ha
  | _ => cases hpart

namespace Value

/-! ## One level -/

/-- What there is for a type is read at it; where there is nothing, null is. -/
def Decodes (node : Wanted Json) : Prop := ∃ v, decode node.1 (node.2.getD .null) = .ok v

/-- What there is for a type is not read at it. -/
def FailsToDecode (node : Wanted Json) (path : Path) (cause : DecodeCause) : Prop :=
  ∃ json, node.2 = some json ∧ decode node.1 json = .error ⟨path, cause⟩

/-- A tree is read without a type. -/
def Infers (json : Json) : Prop := ∃ v, infer json = .ok v

/-- A tree is not read without a type. -/
def FailsToInfer (json : Json) (path : Path) (cause : DecodeCause) : Prop :=
  infer json = .error ⟨path, cause⟩

section Errors

variable {json : Json} {t : Ty} {kind : Kind} {e : DecodeError}

/-- Null is read at every type, so what is not read is of a kind. -/
theorem nullOr_eq_error {f : Json → Except DecodeError Value} (h : nullOr t json f = .error e) :
    (∃ kind, json.kind? = some kind) ∧ f json = .error e := by
  cases json with
  | null => cases h
  | _ => exact ⟨⟨_, rfl⟩, h⟩

theorem decodeString_eq_error (h : decodeString json = .error e) (hkind : json.kind? = some kind) :
    e.path = .root ∧ json.Refused .string e.cause := by
  cases json with
  | null => cases hkind
  | string s => cases h
  | bool | number | array | object =>
    obtain rfl := Except.error.inj h
    exact ⟨rfl, .wrongKind rfl rfl nofun rfl⟩

theorem decodeNumber_eq_error (h : decodeNumber json = .error e) (hkind : json.kind? = some kind) :
    e.path = .root ∧ json.Refused .number e.cause := by
  cases json with
  | null => cases hkind
  | number n => cases h
  | bool | string | array | object =>
    obtain rfl := Except.error.inj h
    exact ⟨rfl, .wrongKind rfl rfl nofun rfl⟩

theorem decodeBool_eq_error (h : decodeBool json = .error e) (hkind : json.kind? = some kind) :
    e.path = .root ∧ json.Refused .bool e.cause := by
  cases json with
  | null => cases hkind
  | bool b => cases h
  | number | string | array | object =>
    obtain rfl := Except.error.inj h
    exact ⟨rfl, .wrongKind rfl rfl nofun rfl⟩

/-- What is no array but of a kind is of the wrong kind for a list or set. -/
theorem itemsOr_eq_error {cause : DecodeCause} (h : itemsOr cause json = .error e)
    (hkind : json.kind? = some kind) (ht : t.kind? = some .sequence)
    (hcause : DecodeCause.wrongKind? t = some cause) :
    e.path = .root ∧ json.Refused t e.cause := by
  cases json with
  | null => cases hkind
  | array items => cases h
  | bool | number | string | object =>
    obtain rfl := Except.error.inj h
    exact ⟨rfl, .wrongKind rfl ht nofun hcause⟩

/-- What is no object but of a kind is of the wrong kind for a map or object. -/
theorem membersOr_eq_error {cause : DecodeCause} (h : membersOr cause json = .error e)
    (hkind : json.kind? = some kind) (ht : t.kind? = some .record)
    (hcause : DecodeCause.wrongKind? t = some cause) :
    e.path = .root ∧ json.Refused t e.cause := by
  cases json with
  | null => cases hkind
  | object members => cases h
  | bool | number | string | array =>
    obtain rfl := Except.error.inj h
    exact ⟨rfl, .wrongKind rfl ht nofun hcause⟩

/-- A member that the type does not have is refused, the first of them. -/
theorem refuseExtraMembers_eq_error {attributes : List (String × Ty)}
    {members : List (String × Json)} (h : refuseExtraMembers attributes members = .error e) :
    e.path = .root ∧ (Json.object members).Refused (.object attributes) e.cause := by
  unfold refuseExtraMembers at h
  split at h
  · rename_i extra item hfind
    obtain rfl := Except.error.inj h
    obtain ⟨hnot, before, after, rfl, hbefore⟩ := List.find?_eq_some_iff_append.mp hfind
    exact ⟨rfl, .unsupported (by simpa using hbefore) (by simpa using hnot)⟩
  · cases h

/-- The error of a part that is wanted at a type, one step further, is one of the whole. -/
theorem failsToDecode_of_within {item : Json} {step : PathStep}
    (h : (decode t item).mapError (·.within step) = .error e) :
    ∃ rest, e.path = step :: rest ∧ FailsToDecode (t, some item) rest e.cause := by
  obtain ⟨below, hbelow, rfl⟩ := mapError_eq_error_iff.mp h
  exact ⟨below.path, rfl, item, rfl, hbelow⟩

/-- The error of a part without a type, one step further, is one of the whole. -/
theorem failsToInfer_of_within {item : Json} {step : PathStep}
    (h : (infer item).mapError (·.within step) = .error e) :
    ∃ rest, e.path = step :: rest ∧ FailsToInfer item rest e.cause := by
  obtain ⟨below, hbelow, rfl⟩ := mapError_eq_error_iff.mp h
  exact ⟨below.path, rfl, hbelow⟩

/-- The items of an array are read in order. -/
theorem decodeItems_eq_error {items : List Json} {u : Ty}
    (h : decodeItems (decode t) 0 items = .error e)
    (hparts : Json.branching.parts (u, some json) =
      (positions 0 items).map fun part => (part.1, t, some part.2)) :
    FirstPartFails Json.branching.parts Decodes FailsToDecode (u, some json) e.path e.cause := by
  rw [decodeItems_eq_mapM] at h
  exact firstPartFails_of_mapM h hparts (fun part v hv => ⟨v, mapError_eq_ok_iff.mp hv⟩)
    (fun part hpart => failsToDecode_of_within hpart)

/-- The members of a map are read in order. -/
theorem decodeEntries_eq_error {members : List (String × Json)} {u : Ty}
    (h : decodeEntries (decode t) members = .error e)
    (hparts : Json.branching.parts (u, some json) =
      members.map fun member => (.key member.1, t, some member.2)) :
    FirstPartFails Json.branching.parts Decodes FailsToDecode (u, some json) e.path e.cause := by
  rw [decodeEntries_eq_mapM] at h
  refine firstPartFails_of_mapM h hparts (fun member b hb => ?_) fun member hmember =>
    failsToDecode_of_within (bind_pure_eq_error_iff.mp hmember)
  obtain ⟨v, hv, -⟩ := bind_eq_ok_iff.mp hb
  exact ⟨v, mapError_eq_ok_iff.mp hv⟩

/-- The attributes of an object type are read in their order. One that is absent does not fail. -/
theorem decodeAttributes_eq_error {attributes : List (String × Ty)} {members : List (String × Json)}
    (h : decodeAttributes attributes members = .error e) :
    FirstPartFails Json.branching.parts Decodes FailsToDecode
      (.object attributes, some (.object members)) e.path e.cause := by
  rw [decodeAttributes_eq_mapM] at h
  have hparts : Json.branching.parts (.object attributes, some (.object members)) =
      attributes.map fun a => (.attr a.1, a.2, members.lookup a.1) := rfl
  refine firstPartFails_of_mapM h hparts (fun a b hb => ?_) fun a ha => ?_
  · obtain ⟨v, hv, -⟩ := bind_eq_ok_iff.mp hb
    exact ⟨v, mapError_eq_ok_iff.mp hv⟩
  · replace ha := bind_pure_eq_error_iff.mp ha
    cases hlookup : members.lookup a.1 with
    | none =>
      rw [hlookup, Option.getD_none, decode_null] at ha
      cases ha
    | some item =>
      rw [hlookup, Option.getD_some] at ha
      exact failsToDecode_of_within ha

/-- The items of an array are read in order without a type as well. -/
theorem inferItems_eq_error {items : List Json} (h : inferItems 0 items = .error e) :
    FirstPartFails Json.parts Infers FailsToInfer (.array items) e.path e.cause := by
  rw [inferItems_eq_decodeItems, decodeItems_eq_mapM] at h
  exact firstPartFails_of_mapM h (List.map_id _).symm
    (fun part v hv => ⟨v, mapError_eq_ok_iff.mp hv⟩)
    (fun part hpart => failsToInfer_of_within hpart)

/-- The members of an object are read in order without a type as well. -/
theorem inferMembers_eq_error {members : List (String × Json)}
    (h : inferMembers members = .error e) :
    FirstPartFails Json.parts Infers FailsToInfer (.object members) e.path e.cause := by
  rw [inferMembers_eq_mapM] at h
  have hparts : (Json.object members).parts =
      members.map fun member => (.attr member.1, member.2) := rfl
  refine firstPartFails_of_mapM h hparts (fun member b hb => ?_) fun member hmember =>
    failsToInfer_of_within (bind_pure_eq_error_iff.mp hmember)
  obtain ⟨v, hv, -⟩ := bind_eq_ok_iff.mp hb
  exact ⟨v, mapError_eq_ok_iff.mp hv⟩

/-- Values fail to take one type at the first that does not convert to it. -/
theorem unify_eq_error {vs : List Value} (h : unify t 0 vs = .error e) :
    ∃ before v after, vs = before ++ v :: after ∧ (∀ u ∈ before, ∃ w, u.convert t = .ok w) ∧
      (∀ w, v.convert t ≠ .ok w) ∧ ⟨[.index before.length], .mixedList t⟩ = e := by
  rw [unify_eq_mapM] at h
  obtain ⟨before, ⟨step, v⟩, after, hparts, hbefore, hpart⟩ := exists_of_mapM_eq_error h
  obtain ⟨error, herror, rfl⟩ := mapError_eq_error_iff.mp hpart
  refine ⟨before.map Prod.snd, v, after.map Prod.snd, ?_, fun u hu => ?_, fun w hw => ?_, ?_⟩
  · rw [← map_snd_positions 0 vs, hparts, List.map_append, List.map_cons]
  · obtain ⟨part, hmem, rfl⟩ := List.mem_map.mp hu
    obtain ⟨w, hw⟩ := hbefore part hmem
    exact ⟨w, mapError_eq_ok_iff.mp hw⟩
  · cases herror.symm.trans hw
  · rw [eq_of_positions_eq hparts, List.length_map, Nat.zero_add]

/-- The values of items that have one each do not convert to the type of the first that is not null
where the array is mixed. -/
theorem mixed_of_unify {items : List Json} {vs : List Value}
    (hitems : List.Forall₂ (fun item v => infer item = .ok v) items vs)
    (h : unify (commonType vs) 0 vs = .error e) :
    ∃ i t, e = ⟨[.index i], .mixedList t⟩ ∧ (Json.array items).Mixed i t := by
  obtain ⟨before, v, after, rfl, hbefore, hv, rfl⟩ := unify_eq_error h
  cases hfirst : (before ++ v :: after).find? (fun v => !v.isNull) with
  | none =>
    -- all are null, and then they take the dynamic type
    have hdynamic : commonType (before ++ v :: after) = .dynamic := by
      rw [commonType, firstType, List.head?_filter, hfirst]
      rfl
    exact absurd rfl (hdynamic ▸ hv v)
  | some first =>
    have hty : commonType (before ++ v :: after) = first.ty := by
      rw [commonType, firstType, List.head?_filter, hfirst]
      rfl
    rw [hty] at hbefore hv ⊢
    exact ⟨before.length, first.ty, rfl, .mk hitems hfirst hbefore hv⟩

/-- What is not read at a type is refused by the type itself, or its first part that is not read
fails. -/
theorem decode_eq_error (hstatic : t.isStatic = true) (h : decode t json = .error e) :
    (e.path = .root ∧ json.Refused t e.cause) ∨
      FirstPartFails Json.branching.parts Decodes FailsToDecode (t, some json) e.path e.cause := by
  cases t with
  | dynamic => cases hstatic
  | string =>
    obtain ⟨⟨kind, hkind⟩, h⟩ := nullOr_eq_error h
    exact .inl (decodeString_eq_error h hkind)
  | number =>
    obtain ⟨⟨kind, hkind⟩, h⟩ := nullOr_eq_error h
    exact .inl (decodeNumber_eq_error h hkind)
  | bool =>
    obtain ⟨⟨kind, hkind⟩, h⟩ := nullOr_eq_error h
    exact .inl (decodeBool_eq_error h hkind)
  | list t | set t =>
    obtain ⟨⟨kind, hkind⟩, h⟩ := nullOr_eq_error h
    rcases bind_eq_error_iff.mp h with h | ⟨items, hitems, hread⟩
    · exact .inl (itemsOr_eq_error h hkind rfl rfl)
    · obtain rfl := itemsOr_eq_ok hitems
      exact .inr (decodeItems_eq_error (bind_pure_eq_error_iff.mp hread) rfl)
  | map t =>
    obtain ⟨⟨kind, hkind⟩, h⟩ := nullOr_eq_error h
    rcases bind_eq_error_iff.mp h with h | ⟨members, hmembers, hread⟩
    · exact .inl (membersOr_eq_error h hkind rfl rfl)
    · obtain rfl := membersOr_eq_ok hmembers
      exact .inr (decodeEntries_eq_error (bind_pure_eq_error_iff.mp hread) rfl)
  | object attributes =>
    obtain ⟨⟨kind, hkind⟩, h⟩ := nullOr_eq_error h
    rcases bind_eq_error_iff.mp h with h | ⟨members, hmembers, hread⟩
    · exact .inl (membersOr_eq_error h hkind rfl rfl)
    · obtain rfl := membersOr_eq_ok hmembers
      rcases bind_eq_error_iff.mp hread with hextra | ⟨_, -, hread⟩
      · exact .inl (refuseExtraMembers_eq_error hextra)
      · exact .inr (decodeAttributes_eq_error (bind_pure_eq_error_iff.mp hread))

/-- What is not read without a type is mixed, or its first part that is not read fails. -/
theorem infer_eq_error (h : infer json = .error e) :
    (∃ i t, e = ⟨[.index i], .mixedList t⟩ ∧ json.Mixed i t) ∨
      FirstPartFails Json.parts Infers FailsToInfer json e.path e.cause := by
  cases json with
  | null | bool | number | string => cases h
  | array items =>
    rcases bind_eq_error_iff.mp h with h | ⟨vs, hvs, h⟩
    · exact .inr (inferItems_eq_error h)
    · rw [inferItems_eq_decodeItems, decodeItems_eq_ok_iff] at hvs
      exact .inl (mixed_of_unify hvs (bind_pure_eq_error_iff.mp h))
  | object members => exact .inr (inferMembers_eq_error (bind_pure_eq_error_iff.mp h))

end Errors

/-! ## All levels -/

/-- What is read at a type without dynamic parts fails in order. -/
theorem failsInOrder_decode :
    FailsInOrder Json.branching.parts
      (fun node => Json.branching.ValidWanted node ∧ node.1.isStatic = true) Decodes FailsToDecode
      (RefusedThere Json.Refused) where
  valid_of_mem h part hpart :=
    ⟨Branching.valid_of_mem_parts h.1 part hpart, Branching.isStatic_of_mem_parts h.2 part hpart⟩
  nodup h := Branching.nodup_parts h.1
  cases := by
    rintro ⟨t, x⟩ path cause ⟨-, hstatic⟩ ⟨json, rfl, h⟩
    exact (decode_eq_error hstatic h).imp_left fun ⟨hpath, hrefused⟩ => ⟨hpath, json, rfl, hrefused⟩

/-- An array is mixed one step below it. -/
def MixedBelow (json : Json) (path : Path) (cause : DecodeCause) : Prop :=
  ∃ i t, path = [.index i] ∧ cause = .mixedList t ∧ json.Mixed i t

/-- What is read without a type fails in order. -/
theorem failsInOrder_infer :
    FailsInOrder Json.parts (fun json => json.isData = true) Infers FailsToInfer MixedBelow where
  valid_of_mem := Json.isData_of_mem_parts
  nodup := Json.nodup_parts
  cases := by
    intro json path cause _ h
    refine (infer_eq_error h).imp_left ?_
    rintro ⟨i, t, heq, hmixed⟩
    obtain ⟨rfl, rfl⟩ := DecodeError.mk.inj heq
    exact ⟨i, t, rfl, rfl, hmixed⟩

/-- **The path of a failed reading leads to the first tree that cannot be read.** At a type without
dynamic parts, that is a tree which the type there refuses for what it is itself. Without a type, it
is an item of an array: every item of the array has a value, and this is the first whose value does
not convert to the type of the first that is not null. All that is visited before is read, at every
level of the path. -/
theorem exists_culprit_of_decode_and_infer {json : Json} (hjson : json.isData = true) :
    (∀ t e, t.isWellFormed = true → t.isStatic = true → decode t json = .error e →
      ∃ want part, reach? Json.branching.parts (t, some json) e.path = some (want, some part) ∧
        decode want part = .error (.here e.cause) ∧ part.Refused want e.cause ∧
        PassesBefore Json.branching.parts Decodes (t, some json) e.path) ∧
    (∀ e, infer json = .error e →
      ∃ above i array t, e.path = Path.step above (.index i) ∧ e.cause = .mixedList t ∧
        reach? Json.parts json above = some array ∧ array.Mixed i t ∧
        PassesBefore Json.parts Infers json above) := by
  constructor
  · intro t e ht hstatic h
    have hvalid : Json.branching.ValidWanted (t, some json) :=
      ⟨ht, fun x hx => Option.some.inj hx ▸ hjson⟩
    obtain ⟨want, part, hreach, ⟨_, hsome, hpart⟩, hrefused, hpasses⟩ :=
      failsInOrder_decode.exists_refused ⟨hvalid, hstatic⟩ ⟨json, rfl, h⟩
    obtain rfl := Option.some.inj hsome
    exact ⟨want, part, hreach, hpart, hrefused, hpasses⟩
  · intro e h
    obtain ⟨above, rest, array, hpath, hreach, -, ⟨i, t, rfl, hcause, hmixed⟩, hpasses⟩ :=
      failsInOrder_infer.exists_culprit hjson h
    exact ⟨above, i, array, t, hpath, hcause, hreach, hmixed, hpasses⟩

/-! ### A harbour -/

/-- What there is to know about the ships in a harbour, by call sign. -/
def harbour : Ty :=
  .map (.object [("flag", .string), ("decks", .list (.set .number)), ("crew", .map .bool)])

/-- Loads of a deck. Only the first is a number, and only the last is not the text of one. -/
def writtenDeck : Json :=
  .array [.number (.int 4 (by decide)), .string "8", .string "seven"]

/-- Ships as they are written. The first is in order, though all but its flag is absent. The crew of
the second is an array: it comes before the decks as it is written, and after them in the type. -/
def writtenHarbour : Json :=
  .object [
    ("PA", .object [("flag", .string "a")]),
    ("PB", .object [
      ("crew", .array []), ("decks", .array [.null, writtenDeck]), ("flag", .null)])]

/-- At its type the harbour fails at the first text on the deck. Without one that text is read as a
number, and the deck is mixed where the other one is. -/
theorem exists_culprit_of_decode_and_infer_writtenHarbour :
    writtenHarbour.isData = true ∧
    (harbour.isWellFormed = true ∧ harbour.isStatic = true ∧
      decode harbour writtenHarbour =
        .error ⟨[.key "PB", .attr "decks", .index 1, .index 1], .numberRequired⟩ ∧
      reach? Json.branching.parts (harbour, some writtenHarbour)
        [.key "PB", .attr "decks", .index 1, .index 1] = some (.number, some (.string "8")) ∧
      decode .number (.string "8") = .error (.here .numberRequired) ∧
      (Json.string "8").Refused .number .numberRequired ∧
      PassesBefore Json.branching.parts Decodes (harbour, some writtenHarbour)
        [.key "PB", .attr "decks", .index 1, .index 1]) ∧
    infer writtenHarbour =
      .error ⟨[.attr "PB", .attr "decks", .index 1, .index 2], .mixedList .number⟩ ∧
    reach? Json.parts writtenHarbour [.attr "PB", .attr "decks", .index 1] = some writtenDeck ∧
    writtenDeck.Mixed 2 .number ∧
    PassesBefore Json.parts Infers writtenHarbour [.attr "PB", .attr "decks", .index 1] := by
  have hjson : writtenHarbour.isData = true := by decide
  obtain ⟨hdecode, hinfer⟩ := exists_culprit_of_decode_and_infer hjson
  refine ⟨hjson, ⟨by decide, by decide, ?_⟩, ?_⟩
  · have h : decode harbour writtenHarbour =
        .error ⟨[.key "PB", .attr "decks", .index 1, .index 1], .numberRequired⟩ := by rfl
    obtain ⟨want, part, hreach, hpart, hrefused, hpasses⟩ :=
      hdecode harbour _ (by decide) (by decide) h
    have hculprit : reach? Json.branching.parts (harbour, some writtenHarbour)
        [.key "PB", .attr "decks", .index 1, .index 1] = some (.number, some (.string "8")) := by
      rfl
    obtain ⟨rfl, hsome⟩ := Prod.mk.inj (Option.some.inj (hreach.symm.trans hculprit))
    obtain rfl := Option.some.inj hsome
    exact ⟨h, hculprit, hpart, hrefused, hpasses⟩
  · have h : infer writtenHarbour =
        .error ⟨[.attr "PB", .attr "decks", .index 1, .index 2], .mixedList .number⟩ := by rfl
    obtain ⟨above, i, array, t, hpath, hcause, hreach, hmixed, hpasses⟩ := hinfer _ h
    have hstep : Path.step above (.index i) =
        Path.step [.attr "PB", .attr "decks", .index 1] (.index 2) := hpath.symm
    obtain ⟨rfl, hlast⟩ := List.append_inj' hstep rfl
    obtain rfl := PathStep.index.inj (List.cons.inj hlast).1
    obtain rfl := DecodeCause.mixedList.inj hcause
    have hculprit : reach? Json.parts writtenHarbour [.attr "PB", .attr "decks", .index 1] =
        some writtenDeck := by rfl
    obtain rfl := Option.some.inj (hreach.symm.trans hculprit)
    exact ⟨h, hculprit, hmixed, hpasses⟩

end Value

end ProviderMock
