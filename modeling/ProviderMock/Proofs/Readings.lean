import ProviderMock.Proofs.Grammar
import ProviderMock.Proofs.Layout

/-!
# Two ways of reading

JSON is read at a type, or without one and then converted to the type. The second way goes through
types found from the data, and the items of arrays are converted to those first. But where the JSON
fits a type these conversions leave what was written, and the results are the same.

* **without a type** — `eq_under_of_infer`: what fits a type is read as its value under no types.
  The reason is `convertsAsIs_of_fits`: of two things that fit one type, the first converts to the
  type of the second only if it has this type already.
* **at a type** — `agrees_of_decode`: whatever types a value was converted to before, it converts to
  a type as the value that is read at the type.
-/

namespace ProviderMock

open Fields (Aligned)

/-! ## What fits a type -/

namespace Json

theorem Fits.exists_items {items : List Json} {t : Ty} (h : (Json.array items).Fits t) :
    ∃ e : Ty, ∀ item ∈ items, item.Fits e := by
  cases h with
  | list h | set h => exact ⟨_, h⟩

theorem Fits.exists_member {members : List (String × Json)} {t : Ty}
    (h : (Json.object members).Fits t) {m : String × Json} (hm : m ∈ members) :
    ∃ u, m.2.Fits u := by
  cases h with
  | map h => exact ⟨_, h m hm⟩
  | object hnames h =>
    obtain ⟨u, hu⟩ := Option.isSome_iff_exists.mp (hnames m hm)
    exact ⟨u, h m hm u hu⟩

/-- A tree converts to the type of another one only if it has the type as it is. -/
def ConvertsAsIs (json other : Json) : Prop :=
  ∀ types w, (json.under types).convert other.ownType = .ok w → json.HasType other.ownType

/-- What converts to the type of every item only as it is converts to the type of the items only
as it is. -/
theorem hasType_itemType {json : Json} {others : List Json}
    (h : ∀ other ∈ others, ConvertsAsIs json other) {types : List Ty} {w : Value}
    (hw : (json.under types).convert (itemType others) = .ok w) :
    json.HasType (itemType others) := by
  revert hw
  exact itemType_induction (P := fun e => (json.under types).convert e = .ok w → json.HasType e)
    (fun _ => .dynamic json) fun other hother => h other hother types w

/-- Items that convert as they are make an array that does. -/
theorem ConvertsAsIs.array {items others : List Json}
    (h : ∀ item ∈ items, ∀ other ∈ others, ConvertsAsIs item other) :
    ConvertsAsIs (.array items) (.array others) := by
  intro types w hw
  obtain ⟨ws, hws, -⟩ := exists_of_convert_array hw
  refine .array fun item hitem => ?_
  obtain ⟨w, -, hw⟩ := exists_mem_right hws hitem
  exact hasType_itemType (h item hitem) hw

/-- Members that convert as they are make an object that does. -/
theorem ConvertsAsIs.object {members others : List (String × Json)}
    (hmembers : Entries.Ascending members) (hothers : Entries.Ascending others)
    (h : ∀ name item other, members.lookup name = some item → others.lookup name = some other →
      ConvertsAsIs item other) :
    ConvertsAsIs (.object members) (.object others) := by
  intro types w hw
  have hattributes : Entries.Ascending (memberTypes others) := by
    rw [memberTypes_eq_mapValues, Entries.Ascending, Fields.names_mapValues]
    exact hothers
  obtain ⟨hnames, hall⟩ := exists_of_convert_members hmembers hattributes hw
  refine .object hnames fun name t item ht hitem => ?_
  obtain ⟨w, hw⟩ := hall name t item ht hitem
  rw [memberTypes_eq_mapValues, Fields.lookup_mapValues] at ht
  obtain ⟨other, hother, rfl⟩ := Option.map_eq_some_iff.mp ht
  exact h name item other hitem hother _ w hw

/-- Of two things that fit one type the first converts to the type of the second only as it is. -/
theorem convertsAsIs_of_fits {t : Ty} {json other : Json} (hjson : json.Fits t)
    (hother : other.Fits t) (hdata : json.isData = true) (hdata' : other.isData = true) :
    ConvertsAsIs json other := by
  induction hjson generalizing other with
  | null t => exact fun _ _ _ => .null _
  | string s =>
    cases hother with
    | null => exact fun _ _ _ => .dynamic _
    | string => exact fun _ _ _ => .string s
  | number n =>
    cases hother with
    | null => exact fun _ _ _ => .dynamic _
    | number => exact fun _ _ _ => .number n
  | bool b =>
    cases hother with
    | null => exact fun _ _ _ => .dynamic _
    | bool => exact fun _ _ _ => .bool b
  | list _ ih =>
    cases hother with
    | null => exact fun _ _ _ => .dynamic _
    | list hothers =>
      rw [isData_array_iff] at hdata hdata'
      exact .array fun item hitem other hother =>
        ih item hitem (hothers other hother) (hdata item hitem) (hdata' other hother)
  | set _ ih =>
    cases hother with
    | null => exact fun _ _ _ => .dynamic _
    | set hothers =>
      rw [isData_array_iff] at hdata hdata'
      exact .array fun item hitem other hother =>
        ih item hitem (hothers other hother) (hdata item hitem) (hdata' other hother)
  | map _ ih =>
    cases hother with
    | null => exact fun _ _ _ => .dynamic _
    | map hothers =>
      obtain ⟨hmembers, hall⟩ := isData_object_iff.mp hdata
      obtain ⟨hascending, hall'⟩ := isData_object_iff.mp hdata'
      refine .object hmembers hascending fun name item other hitem hother => ?_
      have hitem := Fields.mem_of_lookup hitem
      have hother := Fields.mem_of_lookup hother
      exact ih _ hitem (hothers _ hother) (hall _ hitem) (hall' _ hother)
  | object hnames _ ih =>
    cases hother with
    | null => exact fun _ _ _ => .dynamic _
    | object _ hothers =>
      obtain ⟨hmembers, hall⟩ := isData_object_iff.mp hdata
      obtain ⟨hascending, hall'⟩ := isData_object_iff.mp hdata'
      refine .object hmembers hascending fun name item other hitem hother => ?_
      have hitem := Fields.mem_of_lookup hitem
      have hother := Fields.mem_of_lookup hother
      obtain ⟨u, hu⟩ := Option.isSome_iff_exists.mp (hnames _ hitem)
      exact ih _ hitem u hu (hothers _ hother u hu) (hall _ hitem) (hall' _ hother)

end Json

namespace Value

/-! ## Without a type -/

/-- Items are converted to their type as they are. -/
theorem eq_under_itemType {items : List Json} {e : Ty} (hfits : ∀ item ∈ items, item.Fits e)
    (hdata : ∀ item ∈ items, item.isData = true) {item : Json} (hitem : item ∈ items) {w : Value}
    (hw : (item.under []).convert (Json.itemType items) = .ok w) :
    w = item.under [Json.itemType items] := by
  have htype : item.HasType (Json.itemType items) :=
    Json.hasType_itemType (fun other hother => Json.convertsAsIs_of_fits (hfits item hitem)
      (hfits other hother) (hdata item hitem) (hdata other hother)) hw
  exact Except.ok.inj (hw.symm.trans (Json.convert_under htype (hdata item hitem) []))

/-- **What fits a type is read without one as its value under no types.** -/
theorem eq_under_of_infer {json : Json} {v : Value} (h : infer json = .ok v) {t : Ty}
    (hfits : json.Fits t) (hdata : json.isData = true) : v = json.under [] := by
  revert t hfits hdata
  apply infer_induction
    (P := fun json v => ∀ {t : Ty}, json.Fits t → json.isData = true → v = json.under []) h
  case null => exact fun _ _ => rfl
  case bool => exact fun b _ _ _ => rfl
  case number => exact fun n _ _ _ => rfl
  case string => exact fun s _ _ _ => rfl
  case array =>
    intro items vs ws hvs hws t hfits hdata
    obtain ⟨e, hitems⟩ := hfits.exists_items
    rw [Json.isData_array_iff] at hdata
    obtain rfl : vs = items.map (·.under []) :=
      eq_map_of_forall₂ (forall₂_imp_of_mem hvs fun item hitem _ _ h =>
        h (hitems item hitem) (hdata item hitem))
    rw [Json.commonType_under, List.forall₂_map_left_iff] at hws
    have hitems : ws = items.map (·.under [Json.itemType items]) :=
      eq_map_of_forall₂ (forall₂_imp_of_mem hws fun item hitem _ _ hw =>
        eq_under_itemType hitems hdata hitem hw)
    rw [Json.commonType_under, hitems, Json.under, Json.itemsUnder_eq_map]
    rfl
  case object =>
    intro members vs hvs t hfits hdata
    obtain ⟨-, hall⟩ := Json.isData_object_iff.mp hdata
    have hmembers : Aligned (fun _ item v => v = item.under []) members vs :=
      hvs.imp fun name item v hmem h => by
        obtain ⟨u, hu⟩ := hfits.exists_member hmem
        exact h hu (hall _ hmem)
    rw [hmembers.eq_mapValues, Json.under, Json.membersUnder_nil]

/-! ## At a type -/

/-- However the value of a tree was converted before, it converts to a type only as the value that
is read. -/
def Agrees (t : Ty) (json : Json) (v : Value) : Prop :=
  ∀ types w, (json.under types).Regular → (json.under types).convert t = .ok w → w.same v = true

/-- The values of items in a regular array are regular. -/
theorem Regular.of_mem_items {items : List Json} {types : List Ty}
    (h : ((Json.array items).under types).Regular) :
    ∀ item ∈ items, (item.under (Json.itemType items :: Ty.elementTypes types)).Regular := by
  intro item hitem
  refine h.of_mem_parts ?_
  rw [Json.under, Json.itemsUnder_eq_map]
  exact List.mem_map_of_mem hitem

/-- The values of members in a regular object are regular. -/
theorem Regular.of_lookup_members {members : List (String × Json)} {types : List Ty}
    (h : ((Json.object members).under types).Regular) {name : String} {item : Json}
    (hitem : members.lookup name = some item) :
    (item.under (Ty.attributeTypes name types)).Regular := by
  have hlookup : (Json.membersUnder members types).lookup name =
      some (item.under (Ty.attributeTypes name types)) := by
    rw [Json.lookup_membersUnder, hitem]
    rfl
  exact h.of_mem_parts (List.mem_map_of_mem (Fields.mem_of_lookup hlookup))

/-- What items convert to is the same as what is read of them, one by one. -/
theorem forall₂_same_of_agrees {e : Ty} {items : List Json} {types : List Ty}
    (hregular : ((Json.array items).under types).Regular) {vs ws : List Value}
    (hvs : List.Forall₂ (Agrees e) items vs)
    (hws : List.Forall₂ (fun item w =>
      (item.under (Json.itemType items :: Ty.elementTypes types)).convert e = .ok w) items ws) :
    List.Forall₂ (fun w v => w.same v = true) ws vs :=
  forall₂_trans hws.flip hvs fun w _ item hitem _ _ hw hv =>
    hv _ w (hregular.of_mem_items item hitem) hw

theorem Agrees.list {e : Ty} (he : e.isWellFormed = true) {items : List Json} {vs : List Value}
    (hvs : List.Forall₂ (Agrees e) items vs) :
    Agrees (.list e) (.array items) (.list e vs) := by
  intro types w hregular hw
  obtain ⟨ws, hws, rfl⟩ := Json.exists_of_convert_array hw
  exact same_list_iff.mpr ⟨e, vs, rfl, Ty.same_self he, forall₂_same_of_agrees hregular hvs hws⟩

theorem Agrees.set {e : Ty} (he : e.isWellFormed = true) {items : List Json} {vs : List Value}
    (hvs : List.Forall₂ (Agrees e) items vs) (hproper : ∀ v ∈ vs, v.Proper) :
    Agrees (.set e) (.array items) (setOf e vs) := by
  intro types w hregular hw
  obtain ⟨ws, hws, rfl⟩ := exists_of_convert_set rfl hw
  rw [Json.itemsUnder_eq_map, List.forall₂_map_left_iff] at hws
  have hproper' : ∀ w ∈ ws, w.Proper := by
    intro w hw
    obtain ⟨item, hitem, hw⟩ := exists_mem_left hws hw
    exact ((hregular.of_mem_items item hitem).convert he hw).toProper
  exact same_setOf_of_forall₂ (Ty.same_self he) hproper' hproper
    (forall₂_same_of_agrees hregular hvs hws)

theorem Agrees.map {e : Ty} (he : e.isWellFormed = true) {members : List (String × Json)}
    (hmembers : Fields.Distinct members) {vs : List (String × Value)}
    (hvs : Aligned (fun _ item v => Agrees e item v) members vs) :
    Agrees (.map e) (.object members) (mapOf e vs) := by
  intro types w hregular hw
  obtain ⟨ws, hws, rfl⟩ := Json.exists_of_convert_entries hw
  refine same_map_iff.mpr ⟨e, _, rfl, Ty.same_self he, Entries.aligned_ofList ?_⟩
  refine forall₂_trans hws.flip hvs fun w _ m hm v _ hw hv => ⟨hw.1.symm.trans hv.1, ?_⟩
  exact hv.2 _ w.2 (hregular.of_lookup_members (Fields.lookup_of_mem hmembers hm)) hw.2

theorem Agrees.object {attributes : List (String × Ty)} (hattributes : Fields.Distinct attributes)
    {members : List (String × Json)} {vs : List (String × Value)}
    (hvs : Aligned (fun name want v => Agrees want ((members.lookup name).getD .null) v)
      attributes vs) :
    Agrees (.object attributes) (.object members) (.object vs) := by
  intro types w hregular hw
  obtain ⟨-, ws, hws, rfl⟩ := exists_of_convert_object rfl hw
  refine (same_object_iff_of_distinct (hws.distinct hattributes)).mpr
    ⟨by rw [← hws.names_eq, hvs.names_eq], fun name w v hw hv => ?_⟩
  obtain ⟨want, hwant, x, hx, hconvert⟩ := hws.lookup hw
  obtain ⟨want', hwant', hagrees⟩ := hvs.lookup hv
  obtain rfl := Option.some.inj (hwant.symm.trans hwant')
  rw [Json.lookup_membersUnder] at hx
  obtain ⟨item, hitem, rfl⟩ := Option.map_eq_some_iff.mp hx
  rw [hitem] at hagrees
  exact hagrees _ w (hregular.of_lookup_members hitem) hconvert

/-- **What is read at a type agrees** with what any value of the tree converts to. -/
theorem agrees_of_decode {t : Ty} {json : Json} {v : Value} (h : decode t json = .ok v)
    (ht : t.isWellFormed = true) (hstatic : t.isStatic = true) (hdata : json.isData = true) :
    Agrees t json v := by
  revert ht hstatic hdata
  apply decode_induction_of_read (P := fun t json v => t.isWellFormed = true →
    t.isStatic = true → json.isData = true → Agrees t json v) h
  case dynamic => exact fun _ _ _ _ hstatic _ => nomatch hstatic
  case null =>
    intro want ht hstatic _ types w _ hw
    have hnull : (Value.null (Ty.latest types)).convert want = .ok (.null want) := by
      cases want <;> first | rfl | cases hstatic
    obtain rfl := Except.ok.inj (hnull.symm.trans hw)
    exact Ty.same_self ht
  case string =>
    intro s _ _ _ types w _ hw
    obtain rfl := Except.ok.inj hw
    exact beq_self_eq_true s
  case number =>
    intro n _ _ _ types w hregular hw
    obtain rfl := Except.ok.inj hw
    exact hregular.same_self
  case bool =>
    intro b _ _ _ types w _ hw
    obtain rfl := Except.ok.inj hw
    exact beq_self_eq_true b
  case list =>
    intro e items vs hvs ht hstatic hdata
    have he : e.isWellFormed = true := ht
    rw [Json.isData_array_iff] at hdata
    exact .list he (forall₂_imp_of_mem hvs fun item hitem _ _ h => h.2 he hstatic (hdata item hitem))
  case set =>
    intro e items vs hvs ht hstatic hdata
    have he : e.isWellFormed = true := ht
    rw [Json.isData_array_iff] at hdata
    refine .set he (forall₂_imp_of_mem hvs fun item hitem _ _ h =>
      h.2 he hstatic (hdata item hitem)) fun v hv => ?_
    obtain ⟨item, hitem, hread, -⟩ := exists_mem_left hvs hv
    exact proper_of_decode hread he (hdata item hitem)
  case map =>
    intro e members vs hvs ht hstatic hdata
    have he : e.isWellFormed = true := ht
    obtain ⟨hascending, hall⟩ := Json.isData_object_iff.mp hdata
    exact .map he hascending.distinct (hvs.imp fun _ _ _ hmem h => h.2 he hstatic (hall _ hmem))
  case object =>
    intro attributes members vs _ hvs ht hstatic hdata
    obtain ⟨hdistinct, hwell⟩ := Ty.isWellFormed_object_iff.mp ht
    obtain ⟨-, hall⟩ := Json.isData_object_iff.mp hdata
    exact .object hdistinct (hvs.imp fun name want v hmem h => h.2 (hwell _ hmem)
      (Ty.isStatic_object_iff.mp hstatic _ hmem) (Json.isData_lookup hall name))

/-- What is read from data without a type is regular. -/
theorem regular_of_infer {json : Json} {v : Value} (h : infer json = .ok v)
    (hdata : json.isData = true) : v.Regular where
  toProper := proper_iff.mpr
    ⟨(robust_isOrdered.infer h hdata).2, (robust_holdsApart.infer h hdata).2⟩
  numbers := (robust_isComparable.infer h hdata).2

end Value

open Value

/-- **Both ways of reading agree.** What is read at a type without dynamic parts is what is read
without a type and then converts to the type. -/
theorem convert_infer_same_decode {t : Ty} (ht : t.isWellFormed = true)
    (hstatic : t.isStatic = true) {json : Json} (hdata : json.isData = true) {u v w : Value}
    (hv : decode t json = .ok v) (hu : infer json = .ok u) (hw : u.convert t = .ok w) :
    w.same v = true := by
  have hunder : u = json.under [] := eq_under_of_infer hu (fits_of_decode hv hstatic hdata) hdata
  have hregular := regular_of_infer hu hdata
  rw [hunder] at hregular hw
  exact agrees_of_decode hv ht hstatic hdata [] w hregular hw

/-! ### A firewall -/

/-- A firewall: a set of rules, with sets of ports and with labels. -/
def firewall : Ty :=
  .object [("rules", .set (.object [("ports", .set .number), ("labels", .map .string)])),
    ("name", .string)]

/-- A firewall without a name. Its last rule is the first one again, with the ports in another order
and written in another way; one rule is null, and so are labels of the others. -/
def firewallJson : Json :=
  .object [("name", .null), ("rules", .array [
    .object [("labels", .object [("team", .string "a"), ("zone", .null)]),
      ("ports", .array [.number (.int 80 (by decide)), .number (.int 443 (by decide))])],
    .object [("labels", .object [("team", .null), ("zone", .string "b")]), ("ports", .array [])],
    .null,
    .object [("labels", .object [("team", .string "a"), ("zone", .null)]),
      ("ports", .array [.number (.double ⟨0x407BB00000000000⟩ (by decide)),
        .number (.int 80 (by decide))])]])]

/-- The firewall is read in both ways, with the same result. -/
theorem convert_infer_same_decode_firewall :
    firewall.isWellFormed = true ∧ firewall.isStatic = true ∧ firewallJson.isData = true ∧
      ∃ u v w, decode firewall firewallJson = .ok v ∧ infer firewallJson = .ok u ∧
        u.convert firewall = .ok w ∧ w.same v = true := by
  obtain ⟨v, hv⟩ : ∃ v, decode firewall firewallJson = .ok v := ⟨_, rfl⟩
  obtain ⟨u, w, hu, hw⟩ : ∃ u w, infer firewallJson = .ok u ∧ u.convert firewall = .ok w :=
    ⟨_, _, rfl, rfl⟩
  have hdata : firewallJson.isData = true := by decide
  exact ⟨by decide, by decide, hdata, u, v, w, hv, hu, hw,
    convert_infer_same_decode (by decide) (by decide) hdata hv hu hw⟩

end ProviderMock
