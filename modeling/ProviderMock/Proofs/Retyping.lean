import ProviderMock.Proofs.Sameness

/-!
# Conversion to types that are the same

The attributes of an object type may be declared in any order. What a value converts to does not
depend on it: `Value.convertAlike_of_same` says that what converts to a type converts to every type
that is the same, and to the same value. `Value.convert_of_same_types` says so of both at once.
-/

namespace ProviderMock

namespace Value

open Fields (Aligned)

/-- Regular values that convert to the first type convert to the second, and to the same value. -/
def ConvertAlike (t u : Ty) : Prop :=
  ∀ v w : Value, v.Regular → v.convert t = .ok w →
    ∃ w', v.convert u = .ok w' ∧ w.same w' = true

theorem convertAlike_self {t : Ty} (ht : t.isWellFormed = true) : ConvertAlike t t :=
  fun _ w hv h => ⟨w, h, (hv.convert ht h).same_self⟩

/-- Elements of regular values convert alike if the types do so. -/
theorem ConvertAlike.elements {e d : Ty} (h : ConvertAlike e d) {v : Value} (hv : v.Regular)
    {elements ws : List Value} (helements : v.elements? = some elements)
    (hws : List.Forall₂ (fun x w => x.convert e = .ok w) elements ws) :
    ∃ ws', List.Forall₂ (fun x w' => x.convert d = .ok w') elements ws' ∧
      List.Forall₂ (fun w w' => w.same w' = true) ws ws' :=
  exists_related hws fun x hx w hw =>
    h x w (hv.of_mem_parts (parts_of_elements helements ▸ hx)) hw

theorem ConvertAlike.list {e d : Ty} (hed : e.same d = true) (h : ConvertAlike e d) :
    ConvertAlike (.list e) (.list d) := by
  intro v w hv hw
  revert hv
  apply convert_list_cases (P := fun v w => v.Regular →
    ∃ w', v.convert (.list d) = .ok w' ∧ w.same w' = true) hw
  case null => exact fun _ _ => ⟨_, rfl, hed⟩
  case unknown => exact fun _ _ => ⟨_, rfl, hed⟩
  case list =>
    intro elements ws hparts hws hv
    obtain ⟨ws', hws', hsame⟩ := h.elements hv hparts hws
    exact ⟨_, convert_list hparts hws', same_list_iff.mpr ⟨d, ws', rfl, hed, hsame⟩⟩

theorem ConvertAlike.set {e d : Ty} (hed : e.same d = true) (he : e.isWellFormed = true)
    (hd : d.isWellFormed = true) (h : ConvertAlike e d) : ConvertAlike (.set e) (.set d) := by
  intro v w hv hw
  revert hv
  apply convert_set_cases (P := fun v w => v.Regular →
    ∃ w', v.convert (.set d) = .ok w' ∧ w.same w' = true) hw
  case null => exact fun _ _ => ⟨_, rfl, hed⟩
  case unknown => exact fun _ _ => ⟨_, rfl, hed⟩
  case set =>
    intro elements ws hparts hws hv
    obtain ⟨ws', hws', hsame⟩ := h.elements hv hparts hws
    have hregular : ∀ {u : Ty} {ws : List Value}, u.isWellFormed = true →
        List.Forall₂ (fun x w => x.convert u = .ok w) elements ws → ∀ w ∈ ws, w.Proper := by
      intro u ws hu hws w hw
      obtain ⟨x, hx, hxw⟩ := exists_mem_left hws hw
      exact ((hv.of_mem_parts (parts_of_elements hparts ▸ hx)).convert hu hxw).toProper
    refine ⟨_, convert_set hparts hws', same_setOf_of_forall₂ hed (hregular he hws)
      (hregular hd hws') hsame⟩

theorem ConvertAlike.map {e d : Ty} (hed : e.same d = true) (h : ConvertAlike e d) :
    ConvertAlike (.map e) (.map d) := by
  intro v w hv hw
  revert hv
  apply convert_map_cases (P := fun v w => v.Regular →
    ∃ w', v.convert (.map d) = .ok w' ∧ w.same w' = true) hw
  case null => exact fun _ _ => ⟨_, rfl, hed⟩
  case unknown => exact fun _ _ => ⟨_, rfl, hed⟩
  case map =>
    intro entries ws hparts hws hv
    obtain ⟨ws', hws', hsame⟩ : ∃ ws', Aligned (fun _ x w' => x.convert d = .ok w') entries ws' ∧
        Aligned (fun _ w w' => w.same w' = true) ws ws' := by
      refine exists_related hws fun x hx w hw => ?_
      obtain ⟨w', hw', hsame⟩ := h x.2 w.2
        (hv.of_mem_parts (parts_of_named hparts ▸ List.mem_map_of_mem hx)) hw.2
      exact ⟨(x.1, w'), ⟨rfl, hw'⟩, hw.1.symm, hsame⟩
    exact ⟨_, convert_map hparts hws',
      same_map_iff.mpr ⟨d, _, rfl, hed, Entries.aligned_ofList hsame⟩⟩

theorem ConvertAlike.object {as bs : List (String × Ty)} (has : Fields.Distinct as)
    (hsame : (Ty.object as).same (.object bs) = true)
    (h : ∀ name t u, as.lookup name = some t → bs.lookup name = some u → ConvertAlike t u) :
    ConvertAlike (.object as) (.object bs) := by
  obtain ⟨hnames, -⟩ := (Ty.same_object_iff_of_distinct has).mp hsame
  have hbs : Fields.Distinct bs := hnames.nodup_iff.mp has
  intro v w hv hw
  revert hv
  apply convert_object_cases (P := fun v w => v.Regular →
    ∃ w', v.convert (.object bs) = .ok w' ∧ w.same w' = true) hw
  case null => exact fun _ _ => ⟨_, rfl, hsame⟩
  case unknown => exact fun _ _ => ⟨_, rfl, hsame⟩
  case object =>
    intro fields ws hparts hextra hws hv
    -- under each name of the second type, what the first one makes of the field has its like
    obtain ⟨ws', hws'⟩ : ∃ ws', Aligned (fun name want w' => ∃ x, fields.lookup name = some x ∧
        x.convert want = .ok w' ∧ ∀ w, ws.lookup name = some w → w.same w' = true) bs ws' := by
      refine exists_forall₂ fun b hb => ?_
      have hb' : bs.lookup b.1 = some b.2 := Fields.lookup_of_mem hbs hb
      obtain ⟨w, hw⟩ : ∃ w, ws.lookup b.1 = some w := by
        rw [← Fields.mem_names_iff, ← hws.names_eq, hnames.mem_iff]
        exact List.mem_map_of_mem hb
      obtain ⟨t, ht, x, hx, hxw⟩ := hws.lookup hw
      have hregular : x.Regular := hv.of_mem_parts
        (parts_of_named hparts ▸ List.mem_map_of_mem (Fields.mem_of_lookup hx))
      obtain ⟨w', hxw', hww'⟩ := h b.1 t b.2 ht hb' x w hregular hxw
      refine ⟨(b.1, w'), rfl, x, hx, hxw', fun w₂ hw₂ => ?_⟩
      obtain rfl := Option.some.inj (hw.symm.trans hw₂)
      exact hww'
    have hextra' : ∀ f ∈ fields, Fields.has bs f.1 = true := by
      intro f hf
      rw [Fields.has_iff, ← hnames.mem_iff, ← Fields.has_iff]
      exact hextra f hf
    refine ⟨_, convert_object hparts hextra'
      (hws'.imp fun name want w' _ h => h.imp fun x hx => ⟨hx.1, hx.2.1⟩), ?_⟩
    refine (same_object_iff_of_distinct (hws.distinct has)).mpr ⟨?_, fun name w w' hw hw' => ?_⟩
    · rw [← hws.names_eq, ← hws'.names_eq]
      exact hnames
    · obtain ⟨-, -, -, -, -, hww'⟩ := hws'.lookup hw'
      exact hww' w hw

/-- **Conversion respects sameness of types.** A regular value that converts to a type converts to
every type that is the same, and to the same value. -/
theorem convertAlike_of_same {t u : Ty} (htu : t.same u = true) (ht : t.isWellFormed = true)
    (hu : u.isWellFormed = true) : ConvertAlike t u := by
  induction t using Ty.induction generalizing u with
  | string | number | bool | dynamic =>
    cases u <;> first | exact convertAlike_self ht | cases htu
  | list e ih =>
    cases u with
    | list d => exact .list htu (ih htu ht hu)
    | _ => cases htu
  | set e ih =>
    cases u with
    | set d => exact .set htu ht hu (ih htu ht hu)
    | _ => cases htu
  | map e ih =>
    cases u with
    | map d => exact .map htu (ih htu ht hu)
    | _ => cases htu
  | object as ih =>
    cases u with
    | object bs =>
      obtain ⟨has, hall⟩ := Ty.isWellFormed_object_iff.mp ht
      obtain ⟨-, hsame⟩ := (Ty.same_object_iff_of_distinct has).mp htu
      refine .object has htu fun name t u ht' hu' => ?_
      have hmem := Fields.mem_of_lookup ht'
      exact ih _ hmem (hsame name t u ht' hu') (hall _ hmem)
        ((Ty.isWellFormed_object_iff.mp hu).2 _ (Fields.mem_of_lookup hu'))
    | _ => cases htu

/-- **Types that are the same take the same values.** A regular value converts to a type exactly if
it converts to one that declares the attributes of its objects in another order, at any depth, and
what it converts to is the same. -/
theorem convert_of_same_types {t u : Ty} (htu : t.same u = true) (ht : t.isWellFormed = true)
    (hu : u.isWellFormed = true) {v : Value} (hv : v.Regular) :
    ((∃ w, v.convert t = .ok w) ↔ ∃ w, v.convert u = .ok w) ∧
      ∀ w w', v.convert t = .ok w → v.convert u = .ok w' → w.same w' = true := by
  have hforth : ConvertAlike t u := convertAlike_of_same htu ht hu
  have hback : ConvertAlike u t := convertAlike_of_same (Ty.same_symm ht htu) hu ht
  refine ⟨⟨?_, ?_⟩, ?_⟩
  · rintro ⟨w, hw⟩
    obtain ⟨w', hw', -⟩ := hforth v w hv hw
    exact ⟨w', hw'⟩
  · rintro ⟨w, hw⟩
    obtain ⟨w', hw', -⟩ := hback v w hv hw
    exact ⟨w', hw'⟩
  · intro w w' hw hw'
    obtain ⟨w₂, hw₂, hsame⟩ := hforth v w hv hw
    obtain rfl := Except.ok.inj (hw₂.symm.trans hw')
    exact hsame

/-! ### Screens -/

/-- The type of screens. -/
def screens : Ty :=
  .set (.object [("name", .string),
    ("modes", .list (.object [("width", .number), ("rate", .dynamic)]))])

/-- The same type in another order. -/
def swappedScreens : Ty :=
  .set (.object [("modes", .list (.object [("rate", .dynamic), ("width", .number)])),
    ("name", .string)])

/-- Three screens, of which two are told apart only by how a width is written. -/
def someScreens : Value :=
  .list .dynamic
    [.object [("name", .string "a"), ("modes", .list .dynamic
        [.object [("width", .string "8"), ("rate", .bool true)]])],
      .object [("modes", .list .dynamic []), ("name", .bool true)],
      .object [("modes", .set .dynamic
        [.object [("rate", .bool true), ("width", .string "8.0")]]), ("name", .string "a")]]

/-- The three screens become two, whichever of the types is asked for. -/
theorem convert_of_same_types_screens :
    screens.same swappedScreens = true ∧ screens.isWellFormed = true ∧
      swappedScreens.isWellFormed = true ∧ someScreens.Regular ∧
      ∃ w w', someScreens.convert screens = .ok w ∧ someScreens.convert swappedScreens = .ok w' ∧
        w.elements?.map List.length = some 2 ∧ w.same w' = true := by
  have htypes : screens.same swappedScreens = true := by decide
  have hv : someScreens.Regular := ⟨⟨by decide, by decide⟩, by decide⟩
  obtain ⟨hiff, hsame⟩ := convert_of_same_types htypes (by decide) (by decide) hv
  obtain ⟨w, hw, htwo⟩ : ∃ w, someScreens.convert screens = .ok w ∧
      w.elements?.map List.length = some 2 := ⟨_, rfl, rfl⟩
  obtain ⟨w', hw'⟩ := hiff.mp ⟨w, hw⟩
  exact ⟨htypes, by decide, by decide, hv, w, w', hw, hw', htwo, hsame w w' hw hw'⟩

end Value

end ProviderMock
