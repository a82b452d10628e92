import ProviderMock.Proofs.Everywhere
import ProviderMock.Proofs.Rounding
import ProviderMock.Proofs.Sameness
import ProviderMock.Proofs.Soundness
import ProviderMock.Value.Json

/-!
# Successful decodings

What it takes for JSON to be read as a value, at a type or without one, and what comes out.
`Value.decode_induction` and `Value.infer_induction` say it once for all trees.

* **types** — `conforms_of_decode`: what is read at a type without dynamic parts conforms to it.
* **tests** — `Value.Robust.infer` and `Value.Robust.decode`: what is read passes every robust test
  everywhere. So it is well-formed and known, its numbers are finite and its sets are collapsed.
-/

namespace ProviderMock

open Fields (Aligned)

/-! ## Types without dynamic parts -/

namespace Ty

mutual

/-- Whether nothing in a type is dynamic. -/
def isStatic : Ty → Bool
  | .dynamic => false
  | .list e => isStatic e
  | .set e => isStatic e
  | .map e => isStatic e
  | .object attributes => attributesStatic attributes
  | _ => true
termination_by structural t => t

/-- Whether nothing in the types of attributes is dynamic. -/
def attributesStatic : List (String × Ty) → Bool
  | [] => true
  | (_, t) :: rest => isStatic t && attributesStatic rest
termination_by structural attributes => attributes

end

theorem isStatic_object_iff {attributes : List (String × Ty)} :
    (Ty.object attributes).isStatic = true ↔ ∀ a ∈ attributes, a.2.isStatic = true := by
  rw [isStatic]
  induction attributes with
  | nil => simp [attributesStatic]
  | cons a rest ih => simp [attributesStatic, ih]

end Ty

/-! ## Data -/

namespace Json

mutual

/-- Whether the members of every object in a tree ascend, as those of data do. -/
def isData : Json → Bool
  | .array items => areData items
  | .object members => decide (Entries.Ascending members) && membersAreData members
  | _ => true
termination_by structural json => json

/-- Whether trees are data. -/
def areData : List Json → Bool
  | [] => true
  | item :: rest => isData item && areData rest
termination_by structural items => items

/-- Whether the trees of members are data. -/
def membersAreData : List (String × Json) → Bool
  | [] => true
  | (_, item) :: rest => isData item && membersAreData rest
termination_by structural members => members

end

theorem isData_array_iff {items : List Json} :
    (Json.array items).isData = true ↔ ∀ item ∈ items, item.isData = true := by
  rw [isData]
  induction items with
  | nil => simp [areData]
  | cons item rest ih => simp [areData, ih]

theorem membersAreData_iff {members : List (String × Json)} :
    membersAreData members = true ↔ ∀ m ∈ members, m.2.isData = true := by
  induction members with
  | nil => simp [membersAreData]
  | cons m rest ih => simp [membersAreData, ih]

theorem isData_object_iff {members : List (String × Json)} :
    (Json.object members).isData = true ↔
      Entries.Ascending members ∧ ∀ m ∈ members, m.2.isData = true := by
  rw [isData, Bool.and_eq_true, decide_eq_true_iff, membersAreData_iff]

/-- A member of data is data, and so is the null in place of an absent one. -/
theorem isData_lookup {members : List (String × Json)} (h : ∀ m ∈ members, m.2.isData = true)
    (name : String) : ((members.lookup name).getD .null).isData = true := by
  cases hlookup : members.lookup name with
  | none => rfl
  | some item => exact h _ (Fields.mem_of_lookup hlookup)

/-- The double of a number is finite. -/
theorem Number.isFinite_toDouble (n : Json.Number) : n.toDouble.isFinite = true := by
  cases n with
  | int value fits =>
    refine Double.isFinite_ofInt ?_
    by_cases hzero : value.natAbs = 0
    · rw [hzero]
      decide
    · have hlt : value.natAbs < 2 ^ 65 := by omega
      exact Nat.lt_trans ((Nat.log2_lt hzero).mpr hlt) (by decide)
  | double value finite => exact finite

end Json

namespace Value

/-! ## Parts -/

section Parts

variable {f : Json → Except DecodeError Value} {start : Nat}

theorem decodeItems_eq_mapM (items : List Json) :
    decodeItems f start items =
      (positions start items).mapM fun part => (f part.2).mapError (·.within part.1) := by
  induction items generalizing start with
  | nil => rfl
  | cons item rest ih => rw [decodeItems, positions_cons, List.mapM_cons, ih]

/-- Items are read if each of them is. -/
theorem decodeItems_eq_ok_iff {items : List Json} {vs : List Value} :
    decodeItems f start items = .ok vs ↔
      List.Forall₂ (fun item v => f item = .ok v) items vs := by
  rw [decodeItems_eq_mapM, mapM_eq_ok_iff]
  simp only [mapError_eq_ok_iff]
  exact forall₂_positions_iff fun item v => f item = .ok v

theorem decodeEntries_eq_mapM (members : List (String × Json)) :
    decodeEntries f members = members.mapM fun member => do
      let v ← (f member.2).mapError (·.within (.key member.1))
      return (member.1, v) := by
  induction members with
  | nil => rfl
  | cons member rest ih => simp only [decodeEntries, List.mapM_cons, ih, bind_assoc, pure_bind]

/-- Members are read if each of them is, and keep their names as keys. -/
theorem decodeEntries_eq_ok_iff {members : List (String × Json)} {vs : List (String × Value)} :
    decodeEntries f members = .ok vs ↔ Aligned (fun _ item v => f item = .ok v) members vs := by
  rw [decodeEntries_eq_mapM, mapM_named_eq_ok_iff]
  simp only [mapError_eq_ok_iff]

theorem decodeAttributes_eq_mapM (attributes : List (String × Ty))
    (members : List (String × Json)) :
    decodeAttributes attributes members = attributes.mapM fun a => do
      let v ← (decode a.2 ((members.lookup a.1).getD .null)).mapError (·.within (.attr a.1))
      return (a.1, v) := by
  induction attributes with
  | nil => rfl
  | cons a rest ih => simp only [decodeAttributes, List.mapM_cons, ih, bind_assoc, pure_bind]

/-- Attributes are read if the member of each is, or null in place of an absent one. -/
theorem decodeAttributes_eq_ok_iff {attributes : List (String × Ty)}
    {members : List (String × Json)} {vs : List (String × Value)} :
    decodeAttributes attributes members = .ok vs ↔
      Aligned (fun name want v => decode want ((members.lookup name).getD .null) = .ok v)
        attributes vs := by
  rw [decodeAttributes_eq_mapM, mapM_named_eq_ok_iff]
  simp only [mapError_eq_ok_iff]

/-- Nothing is refused exactly if every member has its attribute. -/
theorem refuseExtraMembers_eq_ok_iff {attributes : List (String × Ty)}
    {members : List (String × Json)} :
    refuseExtraMembers attributes members = .ok () ↔
      ∀ m ∈ members, Fields.has attributes m.1 = true := by
  unfold refuseExtraMembers
  split
  · rename_i extra _ hfind
    have hmem := List.mem_of_find?_eq_some hfind
    have hnot := List.find?_some hfind
    simp only [reduceCtorEq, false_iff, not_forall]
    exact ⟨_, hmem, by simpa using hnot⟩
  · rename_i hnone
    simpa using hnone

/-- Items are read without a type as they are at one. -/
theorem inferItems_eq_decodeItems (items : List Json) :
    inferItems start items = decodeItems infer start items := by
  induction items generalizing start with
  | nil => rfl
  | cons item rest ih => rw [inferItems, decodeItems, ih]

theorem inferMembers_eq_mapM (members : List (String × Json)) :
    inferMembers members = members.mapM fun member => do
      let v ← (infer member.2).mapError (·.within (.attr member.1))
      return (member.1, v) := by
  induction members with
  | nil => rfl
  | cons member rest ih => simp only [inferMembers, List.mapM_cons, ih, bind_assoc, pure_bind]

/-- Members have values if each of them has one. -/
theorem inferMembers_eq_ok_iff {members : List (String × Json)} {vs : List (String × Value)} :
    inferMembers members = .ok vs ↔ Aligned (fun _ item v => infer item = .ok v) members vs := by
  rw [inferMembers_eq_mapM, mapM_named_eq_ok_iff]
  simp only [mapError_eq_ok_iff]

theorem unify_eq_mapM (t : Ty) (vs : List Value) :
    unify t start vs = (positions start vs).mapM fun part =>
      (part.2.convert t).mapError fun _ => ⟨[part.1], .mixedList t⟩ := by
  induction vs generalizing start with
  | nil => rfl
  | cons v rest ih =>
    rw [unify, positions_cons, List.mapM_cons, ← ih]
    cases v.convert t <;> rfl

/-- Elements take one type if each of them converts to it. -/
theorem unify_eq_ok_iff {t : Ty} {vs ws : List Value} :
    unify t start vs = .ok ws ↔ List.Forall₂ (fun v w => v.convert t = .ok w) vs ws := by
  rw [unify_eq_mapM, mapM_eq_ok_iff]
  simp only [mapError_eq_ok_iff]
  exact forall₂_positions_iff fun v w => convert t v = .ok w

end Parts

/-- Null is a null of the wanted type; anything else is read. -/
theorem nullOr_cases {P : Json → Value → Prop} {want : Ty} {f : Json → Except DecodeError Value}
    {json : Json} {v : Value} (h : nullOr want json f = .ok v) (null : P .null (.null want))
    (other : f json = .ok v → P json v) : P json v := by
  unfold nullOr at h
  split at h
  · obtain rfl := Except.ok.inj h
    exact null
  · exact other h

theorem itemsOr_eq_ok {cause : DecodeCause} {json : Json} {items : List Json}
    (h : itemsOr cause json = .ok items) : json = .array items := by
  unfold itemsOr at h
  split at h
  · rw [Except.ok.inj h]
  · cases h

theorem membersOr_eq_ok {cause : DecodeCause} {json : Json} {members : List (String × Json)}
    (h : membersOr cause json = .ok members) : json = .object members := by
  unfold membersOr at h
  split at h
  · rw [Except.ok.inj h]
  · cases h

/-! ## Induction -/

/-- Induction on what is read without a type: a relation of JSON and values holds of all of it if it
passes from items and members to what holds them. -/
theorem infer_induction {P : Json → Value → Prop} {json : Json} {v : Value}
    (h : infer json = .ok v)
    (null : P .null (.null .dynamic))
    (bool : ∀ b, P (.bool b) (.bool b))
    (number : ∀ n, P (.number n) (.number n.toDouble))
    (string : ∀ s, P (.string s) (.string s))
    (array : ∀ items vs ws, List.Forall₂ P items vs →
      List.Forall₂ (fun v w => v.convert (commonType vs) = .ok w) vs ws →
      P (.array items) (.list (commonType vs) ws))
    (object : ∀ members vs, Aligned (fun _ => P) members vs →
      P (.object members) (.object vs)) : P json v := by
  induction json using Json.induction generalizing v with
  | null =>
    obtain rfl := Except.ok.inj h
    exact null
  | bool b =>
    obtain rfl := Except.ok.inj h
    exact bool b
  | number n =>
    obtain rfl := Except.ok.inj h
    exact number n
  | string s =>
    obtain rfl := Except.ok.inj h
    exact string s
  | array items ih =>
    obtain ⟨vs, hvs, h⟩ := bind_eq_ok_iff.mp h
    obtain ⟨ws, hws, h⟩ := bind_eq_ok_iff.mp h
    obtain rfl := Except.ok.inj h
    rw [inferItems_eq_decodeItems, decodeItems_eq_ok_iff] at hvs
    exact array items vs ws (forall₂_imp_of_mem hvs fun item hitem _ _ => ih item hitem)
      (unify_eq_ok_iff.mp hws)
  | object members ih =>
    obtain ⟨vs, hvs, h⟩ := bind_eq_ok_iff.mp h
    obtain rfl := Except.ok.inj h
    exact object members vs ((inferMembers_eq_ok_iff.mp hvs).imp fun _ _ _ hmem => ih _ hmem)

/-- Induction on what is read at a type: a relation of the type, JSON and values holds of all of it
if it holds of what is read without a type and passes from parts to wholes. -/
theorem decode_induction {P : Ty → Json → Value → Prop} {t : Ty} {json : Json} {v : Value}
    (h : decode t json = .ok v)
    (dynamic : ∀ json v, infer json = .ok v → P .dynamic json v)
    (null : ∀ want, P want .null (.null want))
    (string : ∀ s, P .string (.string s) (.string s))
    (number : ∀ n, P .number (.number n) (.number n.toDouble))
    (bool : ∀ b, P .bool (.bool b) (.bool b))
    (list : ∀ e items vs, List.Forall₂ (P e) items vs → P (.list e) (.array items) (.list e vs))
    (set : ∀ e items vs, List.Forall₂ (P e) items vs → P (.set e) (.array items) (setOf e vs))
    (map : ∀ e members vs, Aligned (fun _ => P e) members vs →
      P (.map e) (.object members) (mapOf e vs))
    (object : ∀ attributes members vs, (∀ m ∈ members, Fields.has attributes m.1 = true) →
      Aligned (fun name want v => P want ((members.lookup name).getD .null) v) attributes vs →
      P (.object attributes) (.object members) (.object vs)) : P t json v := by
  induction t using Ty.induction generalizing json v with
  | dynamic => exact dynamic json v h
  | string =>
    refine nullOr_cases h (null _) fun h => ?_
    unfold decodeString at h
    split at h
    · obtain rfl := Except.ok.inj h
      exact string _
    · cases h
  | number =>
    refine nullOr_cases h (null _) fun h => ?_
    unfold decodeNumber at h
    split at h
    · obtain rfl := Except.ok.inj h
      exact number _
    · cases h
  | bool =>
    refine nullOr_cases h (null _) fun h => ?_
    unfold decodeBool at h
    split at h
    · obtain rfl := Except.ok.inj h
      exact bool _
    · cases h
  | list e ih =>
    refine nullOr_cases h (null _) fun h => ?_
    obtain ⟨items, hitems, h⟩ := bind_eq_ok_iff.mp h
    obtain ⟨vs, hvs, h⟩ := bind_eq_ok_iff.mp h
    obtain rfl := Except.ok.inj h
    obtain rfl := itemsOr_eq_ok hitems
    exact list e items vs ((decodeItems_eq_ok_iff.mp hvs).imp fun _ _ => ih)
  | set e ih =>
    refine nullOr_cases h (null _) fun h => ?_
    obtain ⟨items, hitems, h⟩ := bind_eq_ok_iff.mp h
    obtain ⟨vs, hvs, h⟩ := bind_eq_ok_iff.mp h
    obtain rfl := Except.ok.inj h
    obtain rfl := itemsOr_eq_ok hitems
    exact set e items vs ((decodeItems_eq_ok_iff.mp hvs).imp fun _ _ => ih)
  | map e ih =>
    refine nullOr_cases h (null _) fun h => ?_
    obtain ⟨members, hmembers, h⟩ := bind_eq_ok_iff.mp h
    obtain ⟨vs, hvs, h⟩ := bind_eq_ok_iff.mp h
    obtain rfl := Except.ok.inj h
    obtain rfl := membersOr_eq_ok hmembers
    exact map e members vs ((decodeEntries_eq_ok_iff.mp hvs).imp fun _ _ _ _ => ih)
  | object attributes ih =>
    refine nullOr_cases h (null _) fun h => ?_
    obtain ⟨members, hmembers, h⟩ := bind_eq_ok_iff.mp h
    obtain ⟨⟨⟩, hextra, h⟩ := bind_eq_ok_iff.mp h
    obtain ⟨vs, hvs, h⟩ := bind_eq_ok_iff.mp h
    obtain rfl := Except.ok.inj h
    obtain rfl := membersOr_eq_ok hmembers
    exact object attributes members vs (refuseExtraMembers_eq_ok_iff.mp hextra)
      ((decodeAttributes_eq_ok_iff.mp hvs).imp fun _ _ _ hmem => ih _ hmem)

/-! ## Success -/

/-- An array has a value if its items have values that convert to their common type. -/
theorem infer_array {items : List Json} {vs ws : List Value}
    (hvs : List.Forall₂ (fun item v => infer item = .ok v) items vs)
    (hws : List.Forall₂ (fun v w => v.convert (commonType vs) = .ok w) vs ws) :
    infer (.array items) = .ok (.list (commonType vs) ws) := by
  have hitems : inferItems 0 items = .ok vs := by
    rw [inferItems_eq_decodeItems, decodeItems_eq_ok_iff]
    exact hvs
  exact bind_eq_ok_iff.mpr ⟨vs, hitems, bind_eq_ok_iff.mpr ⟨ws, unify_eq_ok_iff.mpr hws, rfl⟩⟩

/-- An object has a value if its members have values. -/
theorem infer_object {members : List (String × Json)} {vs : List (String × Value)}
    (h : Aligned (fun _ item v => infer item = .ok v) members vs) :
    infer (.object members) = .ok (.object vs) :=
  bind_eq_ok_iff.mpr ⟨vs, inferMembers_eq_ok_iff.mpr h, rfl⟩

/-- An array is read as a list if its items are read. -/
theorem decode_list {e : Ty} {items : List Json} {vs : List Value}
    (h : List.Forall₂ (fun item v => decode e item = .ok v) items vs) :
    decode (.list e) (.array items) = .ok (.list e vs) :=
  bind_eq_ok_iff.mpr ⟨items, rfl, bind_eq_ok_iff.mpr ⟨vs, decodeItems_eq_ok_iff.mpr h, rfl⟩⟩

/-- An array is read as a set if its items are read. -/
theorem decode_set {e : Ty} {items : List Json} {vs : List Value}
    (h : List.Forall₂ (fun item v => decode e item = .ok v) items vs) :
    decode (.set e) (.array items) = .ok (setOf e vs) :=
  bind_eq_ok_iff.mpr ⟨items, rfl, bind_eq_ok_iff.mpr ⟨vs, decodeItems_eq_ok_iff.mpr h, rfl⟩⟩

/-- An object is read as a map if its members are read. -/
theorem decode_map {e : Ty} {members : List (String × Json)} {vs : List (String × Value)}
    (h : Aligned (fun _ item v => decode e item = .ok v) members vs) :
    decode (.map e) (.object members) = .ok (mapOf e vs) :=
  bind_eq_ok_iff.mpr ⟨members, rfl, bind_eq_ok_iff.mpr ⟨vs, decodeEntries_eq_ok_iff.mpr h, rfl⟩⟩

/-- An object is read at an object type if every member has its attribute, and for every attribute
its member is read, or null in place of an absent one. -/
theorem decode_object {attributes : List (String × Ty)} {members : List (String × Json)}
    {vs : List (String × Value)} (hextra : ∀ m ∈ members, Fields.has attributes m.1 = true)
    (h : Aligned (fun name want v => decode want ((members.lookup name).getD .null) = .ok v)
      attributes vs) :
    decode (.object attributes) (.object members) = .ok (.object vs) :=
  bind_eq_ok_iff.mpr ⟨members, rfl, bind_eq_ok_iff.mpr ⟨(), refuseExtraMembers_eq_ok_iff.mpr hextra,
    bind_eq_ok_iff.mpr ⟨vs, decodeAttributes_eq_ok_iff.mpr h, rfl⟩⟩⟩

/-- Null is read at every type as a null of the type. -/
theorem decode_null (t : Ty) : decode t .null = .ok (.null t) := by
  cases t <;> rfl

/-- Induction on what is read at a type that also says of every part that it is read. -/
theorem decode_induction_of_read {P : Ty → Json → Value → Prop} {t : Ty} {json : Json} {v : Value}
    (h : decode t json = .ok v)
    (dynamic : ∀ json v, infer json = .ok v → P .dynamic json v)
    (null : ∀ want, P want .null (.null want))
    (string : ∀ s, P .string (.string s) (.string s))
    (number : ∀ n, P .number (.number n) (.number n.toDouble))
    (bool : ∀ b, P .bool (.bool b) (.bool b))
    (list : ∀ e items vs, List.Forall₂ (fun item v => decode e item = .ok v ∧ P e item v) items vs →
      P (.list e) (.array items) (.list e vs))
    (set : ∀ e items vs, List.Forall₂ (fun item v => decode e item = .ok v ∧ P e item v) items vs →
      P (.set e) (.array items) (setOf e vs))
    (map : ∀ e members vs, Aligned (fun _ item v => decode e item = .ok v ∧ P e item v) members vs →
      P (.map e) (.object members) (mapOf e vs))
    (object : ∀ attributes members vs, (∀ m ∈ members, Fields.has attributes m.1 = true) →
      Aligned (fun name want v => decode want ((members.lookup name).getD .null) = .ok v ∧
        P want ((members.lookup name).getD .null) v) attributes vs →
      P (.object attributes) (.object members) (.object vs)) : P t json v := by
  suffices hread : decode t json = .ok v ∧ P t json v from hread.2
  apply decode_induction (P := fun t json v => decode t json = .ok v ∧ P t json v) h
  case dynamic => exact fun json v h => ⟨h, dynamic json v h⟩
  case null => exact fun want => ⟨decode_null want, null want⟩
  case string => exact fun s => ⟨rfl, string s⟩
  case number => exact fun n => ⟨rfl, number n⟩
  case bool => exact fun b => ⟨rfl, bool b⟩
  case list =>
    exact fun e items vs hvs => ⟨decode_list (hvs.imp fun _ _ h => h.1), list e items vs hvs⟩
  case set =>
    exact fun e items vs hvs => ⟨decode_set (hvs.imp fun _ _ h => h.1), set e items vs hvs⟩
  case map =>
    exact fun e members vs hvs =>
      ⟨decode_map (hvs.imp fun _ _ _ _ h => h.1), map e members vs hvs⟩
  case object =>
    exact fun attributes members vs hnames hvs =>
      ⟨decode_object hnames (hvs.imp fun _ _ _ _ h => h.1), object attributes members vs hnames hvs⟩

end Value

/-! ## What is read -/

/-- What is read at a type without dynamic parts conforms to it. -/
theorem conforms_of_decode {t : Ty} {json : Json} {v : Value} (h : Value.decode t json = .ok v)
    (ht : t.isWellFormed = true) (hstatic : t.isStatic = true) : Conforms v t := by
  revert ht hstatic
  apply Value.decode_induction
    (P := fun t _ v => t.isWellFormed = true → t.isStatic = true → Conforms v t) h
  case dynamic =>
    intro _ _ _ _ hstatic
    cases hstatic
  case null => exact fun want ht _ => .null (Ty.same_self ht)
  case string => exact fun s _ _ => .string s
  case number => exact fun n _ _ => .number _
  case bool => exact fun b _ _ => .bool b
  case list =>
    intro e items vs hvs ht hstatic
    refine .list (Ty.same_self ht) fun v hv => ?_
    obtain ⟨item, -, hitem⟩ := exists_mem_left hvs hv
    exact hitem ht hstatic
  case set =>
    intro e items vs hvs ht hstatic
    refine .set (Ty.same_self ht) fun v hv => ?_
    obtain ⟨item, -, hitem⟩ := exists_mem_left hvs ((Value.sublist_distinct vs).subset hv)
    exact hitem ht hstatic
  case map =>
    intro e members vs hvs ht hstatic
    refine .map (Ty.same_self ht) fun v hv => ?_
    obtain ⟨item, -, hitem⟩ := hvs.exists_left (Entries.mem_of_mem_ofList hv)
    exact hitem ht hstatic
  case object =>
    intro attributes members vs _ hvs ht hstatic
    exact conforms_object_of_aligned (hvs.imp fun name want v hmem hv =>
      hv ((Ty.isWellFormed_object_iff.mp ht).2 _ hmem) (Ty.isStatic_object_iff.mp hstatic _ hmem))

namespace Value

variable {test : Value → Bool}

/-- The type of a well-formed value is well-formed. -/
theorem isWellFormed_ty {v : Value} (h : v.isWellFormed = true) : v.ty.isWellFormed = true := by
  induction v using Value.induction with
  | null t | unknown t => exact h
  | string s | number x | bool b => rfl
  | list t elements ih | set t elements ih =>
    rw [isWellFormed, Bool.and_eq_true] at h
    exact h.1
  | map t entries ih =>
    rw [isWellFormed, Bool.and_eq_true, Bool.and_eq_true] at h
    exact h.1.1
  | object fields ih =>
    rw [isWellFormed, Bool.and_eq_true, decide_eq_true_iff, fieldsWellFormed_iff] at h
    rw [ty, fieldTypes_eq_mapValues, Ty.isWellFormed_object_iff, Fields.Distinct,
      Fields.names_mapValues]
    refine ⟨h.1, fun a ha => ?_⟩
    obtain ⟨field, hfield, rfl⟩ := List.mem_map.mp ha
    exact ih field hfield (h.2 field hfield)

/-- The common type of well-formed values is well-formed. -/
theorem isWellFormed_commonType {values : List Value} (h : ∀ v ∈ values, v.isWellFormed = true) :
    (commonType values).isWellFormed = true := by
  rw [commonType, firstType]
  cases hhead : (values.filter fun v => !v.isNull).head? with
  | none => rfl
  | some v => exact isWellFormed_ty (h v (List.mem_of_mem_filter (List.mem_of_head? hhead)))

/-- What is read from data without a type is well-formed and passes a robust test everywhere. -/
theorem Robust.infer (htest : Robust test) {json : Json} {v : Value}
    (h : Value.infer json = .ok v) (hdata : json.isData = true) :
    v.isWellFormed = true ∧ v.everywhere test = true := by
  revert hdata
  apply infer_induction
    (P := fun json v => json.isData = true →
      v.isWellFormed = true ∧ v.everywhere test = true) h
  case null => exact fun _ => ⟨rfl, htest.null .dynamic rfl⟩
  case bool => exact fun b _ => ⟨rfl, htest.bool b⟩
  case number => exact fun n _ => ⟨rfl, htest.number _ n.isFinite_toDouble⟩
  case string => exact fun s _ => ⟨rfl, htest.string s⟩
  case array =>
    intro items vs ws hvs hws hdata
    have hitems : ∀ v ∈ vs, v.isWellFormed = true ∧ v.everywhere test = true := by
      intro v hv
      obtain ⟨item, hitem, hread⟩ := exists_mem_left hvs hv
      exact hread (Json.isData_array_iff.mp hdata item hitem)
    have htype := isWellFormed_commonType fun v hv => (hitems v hv).1
    -- a test is passed by what the elements are converted to
    have hconverted : ∀ {test : Value → Bool}, Robust test →
        (∀ v ∈ vs, v.everywhere test = true) →
        (Value.list (commonType vs) ws).everywhere test = true := by
      intro test htest hvs
      refine everywhere_iff.mpr ⟨htest.list _ ws htype, fun w hw => ?_⟩
      obtain ⟨v, hv, hconvert⟩ := exists_mem_left hws hw
      exact htest.convert hconvert htype (hvs v hv)
    refine ⟨?_, hconverted htest fun v hv => (hitems v hv).2⟩
    rw [← everywhere_isOrdered]
    exact hconverted robust_isOrdered fun v hv => everywhere_isOrdered v ▸ (hitems v hv).1
  case object =>
    intro members vs hvs hdata
    obtain ⟨hascending, hall⟩ := Json.isData_object_iff.mp hdata
    have hdistinct := hvs.distinct hascending.distinct
    have hfields : ∀ f ∈ vs, f.2.isWellFormed = true ∧ f.2.everywhere test = true := by
      intro f hf
      obtain ⟨item, hitem, hread⟩ := hvs.exists_left hf
      exact hread (hall _ hitem)
    refine ⟨?_, everywhere_object (htest.object vs hdistinct) fun f hf => (hfields f hf).2⟩
    rw [isWellFormed, Bool.and_eq_true, decide_eq_true_iff, fieldsWellFormed_iff]
    exact ⟨hdistinct, fun f hf => (hfields f hf).1⟩

/-- What is read from data at a well-formed type passes a robust test everywhere. -/
theorem Robust.decode (htest : Robust test) {t : Ty} {json : Json} {v : Value}
    (h : Value.decode t json = .ok v) (ht : t.isWellFormed = true) (hdata : json.isData = true) :
    v.everywhere test = true := by
  revert ht hdata
  apply decode_induction
    (P := fun t json v => t.isWellFormed = true → json.isData = true →
      v.everywhere test = true) h
  case dynamic => exact fun json v hv _ hdata => (htest.infer hv hdata).2
  case null => exact fun want ht _ => htest.null want ht
  case string => exact fun s _ _ => htest.string s
  case number => exact fun n _ _ => htest.number _ n.isFinite_toDouble
  case bool => exact fun b _ _ => htest.bool b
  case list =>
    intro e items vs hvs ht hdata
    refine everywhere_iff.mpr ⟨htest.list e vs ht, fun v hv => ?_⟩
    obtain ⟨item, hitem, hread⟩ := exists_mem_left hvs hv
    exact hread ht (Json.isData_array_iff.mp hdata item hitem)
  case set =>
    intro e items vs hvs ht hdata
    refine everywhere_setOf (htest.set e vs ht) fun v hv => ?_
    obtain ⟨item, hitem, hread⟩ := exists_mem_left hvs hv
    exact hread ht (Json.isData_array_iff.mp hdata item hitem)
  case map =>
    intro e members vs hvs ht hdata
    refine everywhere_mapOf (htest.map e vs ht) fun v hv => ?_
    obtain ⟨item, hitem, hread⟩ := hvs.exists_left hv
    exact hread ht ((Json.isData_object_iff.mp hdata).2 _ hitem)
  case object =>
    intro attributes members vs _ hvs ht hdata
    obtain ⟨hdistinct, hall⟩ := Ty.isWellFormed_object_iff.mp ht
    refine everywhere_object (htest.object vs (hvs.distinct hdistinct)) fun v hv => ?_
    obtain ⟨want, hwant, hread⟩ := hvs.exists_left hv
    exact hread (hall _ hwant) (Json.isData_lookup (Json.isData_object_iff.mp hdata).2 v.1)

/-- What is read from data is proper. -/
theorem proper_of_decode {t : Ty} {json : Json} {v : Value} (h : decode t json = .ok v)
    (ht : t.isWellFormed = true) (hdata : json.isData = true) : v.Proper :=
  proper_iff.mpr ⟨robust_isOrdered.decode h ht hdata, robust_holdsApart.decode h ht hdata⟩

end Value

end ProviderMock
