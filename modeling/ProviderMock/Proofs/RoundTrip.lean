import ProviderMock.Proofs.Decoding
import ProviderMock.Proofs.Saturation
import ProviderMock.Proofs.Sameness

/-!
# Writing and reading back

JSON says nothing of types, of the order of fields, or of whether an array is a set. All this comes
back when what was written is read at the type that it had: the type tells sets from lists and
objects from maps, gives nulls their types and puts fields in its own order. Reading a set drops
nothing, because elements that are apart are written apart.

* **expressible values** — a value that JSON can say in full is known, has finite numbers and
  collapsed sets. What is in it is expressible too.
* **reading back** — `exists_decode_toJson` is by induction on the conformance of the value.
-/

namespace ProviderMock

open Fields (Aligned)

namespace Value

/-- A proper value of which nothing is lost in JSON but its types. -/
structure Expressible (v : Value) : Prop extends v.Proper where
  known : v.isWhollyKnown = true
  finite : v.hasFiniteNumbers = true

theorem Expressible.of_mem_parts {v : Value} (hv : v.Expressible) {w : Value} (hw : w ∈ v.parts) :
    w.Expressible where
  toProper := hv.toProper.of_mem_parts hw
  known := by
    have hknown := hv.known
    rw [← everywhere_not_isUnknown, everywhere_iff] at hknown
    rw [← everywhere_not_isUnknown]
    exact hknown.2 w hw
  finite := (everywhere_iff.mp hv.finite).2 w hw

/-- A finite number is written as itself. -/
theorem ofDouble_of_isFinite {x : Double} (h : x.isFinite = true) :
    Json.ofDouble x = .number (.double x h) := dif_pos h

/-- Elements are read back if each of them is. -/
theorem forall₂_elementsToJson {f : Json → Except DecodeError Value} {es ws : List Value}
    (h : List.Forall₂ (fun e w => f e.toJson = .ok w ∧ e.same w = true) es ws) :
    List.Forall₂ (fun item w => f item = .ok w) (elementsToJson es) ws := by
  rw [elementsToJson_eq_map, List.forall₂_map_left_iff]
  exact h.imp fun _ _ h => h.1

/-- The members of an object are its fields. -/
theorem lookup_fieldsToJson {fields : List (String × Value)} (h : Fields.Distinct fields)
    (name : String) :
    (Entries.ofList (fieldsToJson fields)).lookup name = (fields.lookup name).map toJson := by
  have hmembers : Fields.Distinct (Fields.mapValues toJson fields) := by
    rw [Fields.Distinct, Fields.names_mapValues]
    exact h
  rw [fieldsToJson_eq_mapValues, Entries.lookup_ofList hmembers, Fields.lookup_mapValues]

/-- What a value is written as is data. -/
theorem isData_toJson (v : Value) : v.toJson.isData = true := by
  have hmembers : ∀ {fields : List (String × Value)}, (∀ f ∈ fields, f.2.toJson.isData = true) →
      (Json.ofMembers (fieldsToJson fields)).isData = true := by
    refine fun h => Json.isData_object_iff.mpr ⟨Entries.ascending_ofList _, fun m hm => ?_⟩
    rw [fieldsToJson_eq_mapValues] at hm
    obtain ⟨f, hf, rfl⟩ := List.mem_map.mp (Entries.mem_of_mem_ofList hm)
    exact h f hf
  induction v using Value.induction with
  | number x =>
    rw [toJson, Json.ofDouble]
    split <;> rfl
  | list t elements ih | set t elements ih =>
    rw [toJson, elementsToJson_eq_map]
    exact Json.isData_array_iff.mpr (List.forall_mem_map.mpr ih)
  | map t entries ih => exact hmembers ih
  | object fields ih => exact hmembers ih
  | _ => rfl

/-- A list is read back if its elements are. -/
theorem decode_toJson_list {t u : Ty} {es ws : List Value}
    (h : List.Forall₂ (fun e w => decode u e.toJson = .ok w ∧ e.same w = true) es ws) :
    decode (.list u) (Value.list t es).toJson = .ok (.list u ws) :=
  decode_list (forall₂_elementsToJson h)

/-- A set is read back if its elements are, and equal ones are dropped. -/
theorem decode_toJson_set {t u : Ty} {es ws : List Value}
    (h : List.Forall₂ (fun e w => decode u e.toJson = .ok w ∧ e.same w = true) es ws) :
    decode (.set u) (Value.set t es).toJson = .ok (setOf u ws) :=
  decode_set (forall₂_elementsToJson h)

/-- A map is read back if its entries are: its keys ascend already. -/
theorem decode_toJson_map {t u : Ty} {es ws : List (String × Value)} (hes : Entries.Ascending es)
    (h : Aligned (fun _ e w => decode u e.toJson = .ok w ∧ e.same w = true) es ws) :
    decode (.map u) (Value.map t es).toJson = .ok (.map u ws) := by
  have hmembers : Entries.Ascending (Fields.mapValues toJson es) := by
    rw [Entries.Ascending, Fields.names_mapValues]
    exact hes
  have hread : Aligned (fun _ item w => decode u item = .ok w) (Fields.mapValues toJson es) ws := by
    rw [Fields.mapValues, Aligned, List.forall₂_map_left_iff]
    exact List.Forall₂.imp (fun _ _ h => ⟨h.1, h.2.1⟩) h
  rw [toJson, Json.ofMembers, fieldsToJson_eq_mapValues, Entries.ofList_eq_self hmembers,
    ← Entries.ofList_eq_self (Entries.ascending_of_aligned h hes)]
  exact decode_map hread

/-- An object is read back if it has the names of the type, and what it has under each is. -/
theorem decode_toJson_object {attributes : List (String × Ty)} {fields ws : List (String × Value)}
    (hfields : Fields.Distinct fields)
    (hnames : ∀ name, Fields.has fields name = Fields.has attributes name)
    (h : Aligned (fun name want w => ∃ x, fields.lookup name = some x ∧
      decode want x.toJson = .ok w ∧ x.same w = true) attributes ws) :
    decode (.object attributes) (Value.object fields).toJson = .ok (.object ws) := by
  refine decode_object (fun m hm => ?_) (h.imp fun name want w _ h => ?_)
  · have hmem := List.mem_map_of_mem (f := Prod.fst) (Entries.mem_of_mem_ofList hm)
    rw [fieldsToJson_eq_mapValues] at hmem
    rw [← hnames, Fields.has_iff, ← Fields.names_mapValues toJson]
    exact hmem
  · obtain ⟨x, hx, hw, -⟩ := h
    rw [lookup_fieldsToJson hfields, hx]
    exact hw

end Value

open Value

/-- The JSON of an expressible value is read, at the type that the value conforms to, as one that
the value is the same as. -/
theorem exists_same_decode_toJson {t : Ty} {v : Value} (h : Conforms v t)
    (ht : t.isWellFormed = true) (hstatic : t.isStatic = true) (hv : v.Expressible) :
    ∃ w, decode t v.toJson = .ok w ∧ v.same w = true := by
  induction h with
  | dynamic v => cases hstatic
  | null htu => exact ⟨_, decode_null _, htu⟩
  | unknown htu => cases hv.known
  | string s => exact ⟨_, rfl, beq_self_eq_true s⟩
  | number x =>
    have hx : x.isFinite = true := hv.finite
    refine ⟨.number x, ?_, (Double.same_self_iff x).mpr (Double.isNaN_of_isFinite hx)⟩
    rw [toJson, ofDouble_of_isFinite hx]
    rfl
  | bool b => exact ⟨_, rfl, beq_self_eq_true b⟩
  | @list t u es htu helements ih =>
    obtain ⟨ws, hws⟩ := exists_forall₂ fun e he => ih e he ht hstatic (hv.of_mem_parts he)
    exact ⟨.list u ws, decode_toJson_list hws,
      same_list_iff.mpr ⟨u, ws, rfl, htu, hws.imp fun _ _ h => h.2⟩⟩
  | @set t u es htu helements ih =>
    obtain ⟨ws, hws⟩ := exists_forall₂ fun e he => ih e he ht hstatic (hv.of_mem_parts he)
    have hturned : ∀ e ∈ es, ∀ w, decode u e.toJson = .ok w ∧ e.same w = true →
        w.same e = true := fun e he w hw =>
      same_symm (hv.of_mem_parts he).toProper (proper_of_decode hw.1 ht e.isData_toJson) hw.2
    -- what is read of elements that are apart is apart, so nothing is dropped
    have hapart : ws.Pairwise fun a b => a.same b = false := by
      refine pairwise_of_forall₂ hws hv.pairwise fun a ha b hb c d hac hbd hab => ?_
      refine Bool.eq_false_iff.mpr fun hcd => Bool.eq_false_iff.mp hab ?_
      exact same_trans (same_trans hac.2 hcd) (hturned b hb d hbd)
    refine ⟨_, decode_toJson_set hws, same_set_iff.mpr ⟨u, ws, ?_, htu, hws.length_eq, ?_⟩⟩
    · rw [Value.setOf, distinct_eq_self hapart]
    · intro e he
      obtain ⟨w, hw, hew⟩ := exists_mem_right hws he
      exact ⟨w, hw, hturned e he w hew⟩
  | @map t u es htu hentries ih =>
    obtain ⟨ws, hws⟩ : ∃ ws, Aligned
        (fun _ e w => decode u e.toJson = .ok w ∧ e.same w = true) es ws :=
      Fields.exists_aligned fun e he =>
        ih e he ht hstatic (hv.of_mem_parts (List.mem_map_of_mem he))
    exact ⟨.map u ws, decode_toJson_map (ascending_of_isWellFormed hv.wellFormed) hws,
      same_map_iff.mpr ⟨u, ws, rfl, htu, hws.imp fun _ _ _ _ h => h.2⟩⟩
  | @object fields attributes hnames hfields ih =>
    obtain ⟨hattributes, hwell⟩ := Ty.isWellFormed_object_iff.mp ht
    have hdistinct := distinct_of_isWellFormed hv.wellFormed
    obtain ⟨ws, hws⟩ : ∃ ws, Aligned (fun name want w => ∃ x, fields.lookup name = some x ∧
        decode want x.toJson = .ok w ∧ x.same w = true) attributes ws := by
      refine Fields.exists_aligned_of_has hattributes hnames fun name x want hx hwant => ?_
      have hmem := Fields.mem_of_lookup hwant
      exact ih name x want hx hwant (hwell _ hmem) (Ty.isStatic_object_iff.mp hstatic _ hmem)
        (hv.of_mem_parts (List.mem_map_of_mem (Fields.mem_of_lookup hx)))
    refine ⟨.object ws, decode_toJson_object hdistinct hnames hws,
      (same_object_iff_of_distinct hdistinct).mpr ⟨?_, ?_⟩⟩
    · rw [← hws.names_eq]
      exact Fields.perm_names_of_has hdistinct hattributes hnames
    · intro name x w hx hw
      obtain ⟨want, -, y, hy, -, hsame⟩ := hws.lookup hw
      obtain rfl := Option.some.inj (hx.symm.trans hy)
      exact hsame

/-- **What is written is read back.** The JSON of an expressible value is read, at the type that the
value conforms to, as a value that is the same. -/
theorem exists_decode_toJson {t : Ty} {v : Value} (h : Conforms v t) (ht : t.isWellFormed = true)
    (hstatic : t.isStatic = true) (hv : v.Expressible) :
    ∃ w, decode t v.toJson = .ok w ∧ w.same v = true := by
  obtain ⟨w, hw, hsame⟩ := exists_same_decode_toJson h ht hstatic hv
  exact ⟨w, hw, same_symm hv.toProper (proper_of_decode hw ht v.isData_toJson) hsame⟩

/-- **Reading undoes writing.** A known value with finite numbers, in which the elements of every
set are apart, is written as JSON that is read back, at a type without dynamic parts that it
conforms to, as the same value. -/
theorem decode_toJson {t : Ty} (ht : t.isWellFormed = true) (hstatic : t.isStatic = true)
    {v : Value} (hv : v.isWellFormed = true) (hconforms : Conforms v t)
    (hknown : v.isWhollyKnown = true) (hfinite : v.hasFiniteNumbers = true)
    (hcollapsed : v.isCollapsed = true) :
    ∃ w, Value.decode t v.toJson = .ok w ∧ w.same v = true := by
  have hexpressible : v.Expressible := ⟨⟨hv, hcollapsed⟩, hknown, hfinite⟩
  exact exists_decode_toJson hconforms ht hstatic hexpressible

/-! ### A network -/

theorem conforms_savedGateway (address serial : String) :
    Conforms (savedGateway address serial)
      (.object [("address", .string), ("serial", .string)]) := by
  refine conforms_object_of_perm (.swap "address" "serial" []) ?_
  refine List.forall_mem_cons.mpr ⟨fun v hv => ?_, List.forall_mem_singleton.mpr fun v hv => ?_⟩
  · obtain rfl := Option.some.inj hv
    exact .string address
  · obtain rfl := Option.some.inj hv
    exact .string serial

theorem conforms_savedNetwork : Conforms savedNetwork network.impliedType := by
  refine conforms_object_of_perm (by decide) ?_
  refine List.forall_mem_cons.mpr ⟨fun v hv => ?_, List.forall_mem_cons.mpr ⟨fun v hv => ?_,
    List.forall_mem_cons.mpr ⟨fun v hv => ?_, List.forall_mem_cons.mpr ⟨fun v hv => ?_,
      List.forall_mem_singleton.mpr fun v hv => ?_⟩⟩⟩⟩ <;> obtain rfl := Option.some.inj hv
  · exact .null rfl
  · exact .string "i"
  · exact .list rfl fun _ he => absurd he List.not_mem_nil
  · refine .set rfl (List.forall_mem_cons.mpr ⟨conforms_savedGateway "a" "s", ?_⟩)
    exact List.forall_mem_singleton.mpr (conforms_savedGateway "b" "s")
  · exact .map rfl (List.forall_mem_singleton.mpr (conforms_savedGateway "a" "s"))

/-- The saved network, in which nothing is in the declared order, is read back from what is written
of it. -/
theorem decode_toJson_savedNetwork :
    network.impliedType.isWellFormed = true ∧ network.impliedType.isStatic = true ∧
      savedNetwork.isWellFormed = true ∧ Conforms savedNetwork network.impliedType ∧
      savedNetwork.isWhollyKnown = true ∧ savedNetwork.hasFiniteNumbers = true ∧
      savedNetwork.isCollapsed = true ∧
      ∃ w, Value.decode network.impliedType savedNetwork.toJson = .ok w ∧
        w.same savedNetwork = true :=
  ⟨by decide, by decide, by decide, conforms_savedNetwork, by decide, by decide, by decide,
    decode_toJson (by decide) (by decide) (by decide) conforms_savedNetwork (by decide) (by decide)
      (by decide)⟩

end ProviderMock
