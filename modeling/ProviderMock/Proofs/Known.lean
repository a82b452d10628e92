import ProviderMock.Proofs.Conversion
import ProviderMock.Synthesis

/-!
# Known values

What is made of known values is known: the fields of known targets, and what known values convert
to.
-/

namespace ProviderMock

namespace Value

/-- The field of a known target is known: it is one of the target's own, or null. -/
theorem isWhollyKnown_fieldOr {v : Value} (h : v.isWhollyKnown = true) (name : String) (t : Ty) :
    (v.fieldOr name t).isWhollyKnown = true := by
  cases v with
  | object fields =>
    cases hlookup : fields.lookup name with
    | none =>
      rw [fieldOr, hlookup]
      rfl
    | some w =>
      rw [fieldOr, hlookup]
      exact isWhollyKnown_of_field h hlookup
  | unknown u => cases h
  | _ => rfl

/-- What a known value converts to is known. -/
theorem isWhollyKnown_of_convert {t : Ty} {v w : Value} (h : v.convert t = .ok w)
    (hv : v.isWhollyKnown = true) : w.isWhollyKnown = true := by
  revert hv
  apply convert_induction (P := fun _ v w => v.isWhollyKnown = true → w.isWhollyKnown = true) h
  case dynamic => exact fun _ hv => hv
  case null => exact fun _ _ _ => rfl
  case unknown => exact fun _ _ hv => hv
  case string =>
    intro v w hw _
    obtain ⟨s, rfl⟩ := toStringValue_eq_ok hw
    rfl
  case number =>
    intro v w hw _
    obtain ⟨x, rfl⟩ := toNumberValue_eq_ok hw
    rfl
  case bool =>
    intro v w hw _
    obtain ⟨b, rfl⟩ := toBoolValue_eq_ok hw
    rfl
  case list =>
    intro e v elements ws helements hws hv
    refine isWhollyKnown_list_iff.mpr fun w hw => ?_
    obtain ⟨x, hx, hxw⟩ := exists_mem_left hws hw
    exact hxw (isWhollyKnown_of_mem_elements hv helements x hx)
  case set =>
    intro e v elements ws helements hws hv
    refine isWhollyKnown_set_iff.mpr fun w hw => ?_
    obtain ⟨x, hx, hxw⟩ := exists_mem_left hws ((sublist_distinct ws).subset hw)
    exact hxw (isWhollyKnown_of_mem_elements hv helements x hx)
  case map =>
    intro e v entries ws hentries hws hv
    refine isWhollyKnown_map_iff.mpr fun w hw => ?_
    obtain ⟨x, hx, hxw⟩ := hws.exists_left (Entries.mem_of_mem_ofList hw)
    exact hxw (isWhollyKnown_of_mem_named hv hentries _ hx)
  case object =>
    intro attributes v fields ws hfields _ hws hv
    refine isWhollyKnown_object_iff.mpr fun w hw => ?_
    obtain ⟨_, _, x, hx, hxw⟩ := hws.exists_left hw
    exact hxw (isWhollyKnown_of_mem_named hv hfields _ (Fields.mem_of_lookup hx))

end Value

end ProviderMock
