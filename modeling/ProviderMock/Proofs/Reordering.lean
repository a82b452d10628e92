import Mathlib.Data.List.Perm.Subperm
import ProviderMock.Proofs.Comparison
import ProviderMock.Proofs.Sets
import ProviderMock.Proofs.WellFormed

/-!
# Another order of fields

The fields of an object and the attributes of an object type have an order, and it makes no
difference to what is the same. `Value.Rearranged` relates values that differ in nothing else, and
`Value.Reordered` those of them that have the same nulls and unknowns.

* **types** — `Ty.same_symm` and `Ty.same_trans`: with `Ty.same_self`, sameness of well-formed types
  is an equivalence.
* **values** — `Value.Rearranged.same_of_same`: two values are the same if they are with their
  fields in another order. Sameness of values is no equivalence, for not-a-number is not the same as
  itself, so this does not follow from sameness alone.
* **sets** — `Value.pairwise_of_rearranged`: what is apart stays apart in another order of fields.
-/

namespace ProviderMock

/-- As many distinct names, all of them among others: there are no other names left. -/
theorem Fields.perm_names {α β : Type} {xs : List (String × α)} {ys : List (String × β)}
    (hxs : Distinct xs) (hlength : xs.length = ys.length)
    (h : ∀ x ∈ xs, ∃ b, ys.lookup x.1 = some b) : (names xs).Perm (names ys) := by
  refine (List.Nodup.subperm hxs fun name hname => ?_).perm_of_length_le
    (by simp [names, hlength])
  obtain ⟨x, hx, rfl⟩ := List.mem_map.mp hname
  exact mem_names_iff.mpr (h x hx)

/-- What has the names of another list, each with something related, has its names in another order;
and the other way round. -/
theorem Fields.exists_lookup_iff_of_distinct {α β : Type} {S : α → β → Prop}
    {xs : List (String × α)} {ys : List (String × β)} (hxs : Distinct xs) :
    (xs.length = ys.length ∧ ∀ x ∈ xs, ∃ b, ys.lookup x.1 = some b ∧ S x.2 b) ↔
      (names xs).Perm (names ys) ∧
        ∀ name a b, xs.lookup name = some a → ys.lookup name = some b → S a b := by
  constructor
  · rintro ⟨hlength, h⟩
    refine ⟨perm_names hxs hlength fun x hx => (h x hx).imp fun _ h => h.1, ?_⟩
    intro name a b ha hb
    obtain ⟨c, hc, hac⟩ := h (name, a) (mem_of_lookup ha)
    obtain rfl := Option.some.inj (hb.symm.trans hc)
    exact hac
  · rintro ⟨hnames, h⟩
    refine ⟨by simpa [names] using hnames.length_eq, fun x hx => ?_⟩
    exact exists_lookup_of_perm hnames h (lookup_of_mem hxs hx)

/-! ## Types -/

namespace Ty

theorem same_object_iff {as bs : List (String × Ty)} :
    (Ty.object as).same (.object bs) = true ↔
      as.length = bs.length ∧ ∀ a ∈ as, ∃ b, bs.lookup a.1 = some b ∧ a.2.same b = true := by
  rw [same, sameAttributes_eq_all, Bool.and_eq_true, beq_iff_eq, List.all_eq_true]
  exact and_congr_right fun _ => forall₂_congr fun a _ => Option.any_eq_true _ _

/-- Object types without repeated names are the same if they have the same names, in whatever order,
and the same under each. -/
theorem same_object_iff_of_distinct {as bs : List (String × Ty)} (has : Fields.Distinct as) :
    (Ty.object as).same (.object bs) = true ↔ (Fields.names as).Perm (Fields.names bs) ∧
      ∀ name a b, as.lookup name = some a → bs.lookup name = some b → a.same b = true := by
  rw [same_object_iff]
  exact Fields.exists_lookup_iff_of_distinct (S := fun a b => a.same b = true) has

/-- Sameness of well-formed types is symmetric. -/
theorem same_symm {t u : Ty} (ht : t.isWellFormed = true) (h : t.same u = true) :
    u.same t = true := by
  induction t using Ty.induction generalizing u with
  | string | number | bool | dynamic => cases u <;> first | rfl | cases h
  | list e ih =>
    cases u with
    | list d => exact ih ht h
    | _ => cases h
  | set e ih =>
    cases u with
    | set d => exact ih ht h
    | _ => cases h
  | map e ih =>
    cases u with
    | map d => exact ih ht h
    | _ => cases h
  | object attributes ih =>
    cases u with
    | object others =>
      obtain ⟨hdistinct, hall⟩ := isWellFormed_object_iff.mp ht
      obtain ⟨hnames, hsame⟩ := (same_object_iff_of_distinct hdistinct).mp h
      refine (same_object_iff_of_distinct (hnames.nodup_iff.mp hdistinct)).mpr
        ⟨hnames.symm, fun name b a hb ha => ?_⟩
      have hmem := Fields.mem_of_lookup ha
      exact ih _ hmem (hall _ hmem) (hsame name a b ha hb)
    | _ => cases h

/-- Sameness of types is transitive. -/
theorem same_trans {t u w : Ty} (htu : t.same u = true) (huw : u.same w = true) :
    t.same w = true := by
  induction t using Ty.induction generalizing u w with
  | string | number | bool | dynamic => cases u <;> first | exact huw | cases htu
  | list e ih =>
    cases u with
    | list d =>
      cases w with
      | list c => exact ih htu huw
      | _ => cases huw
    | _ => cases htu
  | set e ih =>
    cases u with
    | set d =>
      cases w with
      | set c => exact ih htu huw
      | _ => cases huw
    | _ => cases htu
  | map e ih =>
    cases u with
    | map d =>
      cases w with
      | map c => exact ih htu huw
      | _ => cases huw
    | _ => cases htu
  | object attributes ih =>
    cases u with
    | object others =>
      cases w with
      | object more =>
        rw [same_object_iff] at *
        refine ⟨htu.1.trans huw.1, fun a ha => ?_⟩
        obtain ⟨b, hb, hab⟩ := htu.2 a ha
        obtain ⟨c, hc, hbc⟩ := huw.2 _ (Fields.mem_of_lookup hb)
        exact ⟨c, hc, ih a ha hab hbc⟩
      | _ => cases huw
    | _ => cases htu

/-- Well-formed types are the same if they are the same as two that are. -/
theorem same_of_same {t u c d : Ty} (hd : d.isWellFormed = true) (htu : t.same u = true)
    (hdc : d.same c = true) (huc : u.same c = true) : t.same d = true :=
  same_trans (same_trans htu huc) (same_symm hd hdc)

end Ty

/-! ## Values -/

namespace Value

/-- The second value is the first one with the fields of objects, and the attributes of the types of
elements, in another order. The elements of collections keep theirs. -/
inductive Reordered : Value → Value → Prop where
  | null (t : Ty) : Reordered (.null t) (.null t)
  | unknown (t : Ty) : Reordered (.unknown t) (.unknown t)
  | string (s : String) : Reordered (.string s) (.string s)
  | number (x : Double) : Reordered (.number x) (.number x)
  | bool (b : Bool) : Reordered (.bool b) (.bool b)
  | list {t u : Ty} {vs ws : List Value} (ht : t.same u = true)
      (h : List.Forall₂ Reordered vs ws) : Reordered (.list t vs) (.list u ws)
  | set {t u : Ty} {vs ws : List Value} (ht : t.same u = true)
      (h : List.Forall₂ Reordered vs ws) : Reordered (.set t vs) (.set u ws)
  | map {t u : Ty} {vs ws : List (String × Value)} (ht : t.same u = true)
      (hkeys : Fields.names vs = Fields.names ws)
      (h : List.Forall₂ Reordered (vs.map Prod.snd) (ws.map Prod.snd)) :
      Reordered (.map t vs) (.map u ws)
  | object {vs ws : List (String × Value)} (hnames : (Fields.names vs).Perm (Fields.names ws))
      (h : ∀ name v w, vs.lookup name = some v → ws.lookup name = some w → Reordered v w) :
      Reordered (.object vs) (.object ws)

/-- The second value is the first one with the fields of objects, and the attributes of all types
in it, in another order. The elements of collections keep theirs. -/
inductive Rearranged : Value → Value → Prop where
  | null {t u : Ty} (ht : t.same u = true) : Rearranged (.null t) (.null u)
  | unknown {t u : Ty} (ht : t.same u = true) : Rearranged (.unknown t) (.unknown u)
  | string (s : String) : Rearranged (.string s) (.string s)
  | number (x : Double) : Rearranged (.number x) (.number x)
  | bool (b : Bool) : Rearranged (.bool b) (.bool b)
  | list {t u : Ty} {vs ws : List Value} (ht : t.same u = true)
      (h : List.Forall₂ Rearranged vs ws) : Rearranged (.list t vs) (.list u ws)
  | set {t u : Ty} {vs ws : List Value} (ht : t.same u = true)
      (h : List.Forall₂ Rearranged vs ws) : Rearranged (.set t vs) (.set u ws)
  | map {t u : Ty} {vs ws : List (String × Value)} (ht : t.same u = true)
      (hkeys : Fields.names vs = Fields.names ws)
      (h : List.Forall₂ Rearranged (vs.map Prod.snd) (ws.map Prod.snd)) :
      Rearranged (.map t vs) (.map u ws)
  | object {vs ws : List (String × Value)} (hnames : (Fields.names vs).Perm (Fields.names ws))
      (h : ∀ name v w, vs.lookup name = some v → ws.lookup name = some w → Rearranged v w) :
      Rearranged (.object vs) (.object ws)

namespace Reordered

/-- A well-formed value is itself in its own order. -/
protected theorem refl {v : Value} (hv : v.isWellFormed = true) : Reordered v v := by
  induction v using Value.induction with
  | null t => exact .null t
  | unknown t => exact .unknown t
  | string s => exact .string s
  | number x => exact .number x
  | bool b => exact .bool b
  | list t elements ih =>
    rw [isWellFormed, Bool.and_eq_true, areWellFormed_iff] at hv
    exact .list (Ty.same_self hv.1) (List.forall₂_same.mpr fun e he => ih e he (hv.2 e he))
  | set t elements ih =>
    rw [isWellFormed, Bool.and_eq_true, areWellFormed_iff] at hv
    exact .set (Ty.same_self hv.1) (List.forall₂_same.mpr fun e he => ih e he (hv.2 e he))
  | map t entries ih =>
    have hentries := isWellFormed_of_mem_named hv rfl
    rw [isWellFormed, Bool.and_eq_true, Bool.and_eq_true] at hv
    refine .map (Ty.same_self hv.1.1) rfl (List.forall₂_same.mpr fun e he => ?_)
    obtain ⟨entry, hentry, rfl⟩ := List.mem_map.mp he
    exact ih entry hentry (hentries entry hentry)
  | object fields ih =>
    have hfields := isWellFormed_of_mem_named hv rfl
    refine .object (List.Perm.refl _) fun name v w hv hw => ?_
    obtain rfl := Option.some.inj (hv.symm.trans hw)
    exact ih _ (Fields.mem_of_lookup hv) (hfields _ (Fields.mem_of_lookup hv))

/-- In another order of fields alone the types of a well-formed value keep their order. -/
theorem rearranged {v w : Value} (hv : v.isWellFormed = true) (h : Reordered v w) :
    Rearranged v w := by
  induction v using Value.induction generalizing w with
  | null t =>
    cases h
    exact .null (Ty.same_self hv)
  | unknown t =>
    cases h
    exact .unknown (Ty.same_self hv)
  | string s =>
    cases h
    exact .string s
  | number x =>
    cases h
    exact .number x
  | bool b =>
    cases h
    exact .bool b
  | list t elements ih =>
    have helements := isWellFormed_of_mem_elements hv rfl
    cases h with
    | list htu hws =>
      exact .list htu (forall₂_imp_of_mem hws fun e he _ _ => ih e he (helements e he))
  | set t elements ih =>
    have helements := isWellFormed_of_mem_elements hv rfl
    cases h with
    | set htu hws =>
      exact .set htu (forall₂_imp_of_mem hws fun e he _ _ => ih e he (helements e he))
  | map t entries ih =>
    have hentries := isWellFormed_of_mem_named hv rfl
    cases h with
    | map htu hkeys hws =>
      refine .map htu hkeys (forall₂_imp_of_mem hws fun e he w _ => ?_)
      obtain ⟨entry, hentry, rfl⟩ := List.mem_map.mp he
      exact ih entry hentry (hentries entry hentry)
  | object fields ih =>
    have hfields := isWellFormed_of_mem_named hv rfl
    cases h with
    | object hnames hws =>
      refine .object hnames fun name e w he hw => ?_
      have hmem := Fields.mem_of_lookup he
      exact ih _ hmem (hfields _ hmem) (hws name e w he hw)

end Reordered

namespace Rearranged

/-- A well-formed value is itself in its own order. -/
protected theorem refl {v : Value} (hv : v.isWellFormed = true) : Rearranged v v :=
  (Reordered.refl hv).rearranged hv

/-- Elements that are related to equal ones are equal, if such elements always are. -/
theorem forall₂_same_of_same {as bs vs ws : List Value} (hav : List.Forall₂ Rearranged as vs)
    (hbw : List.Forall₂ Rearranged bs ws) (h : List.Forall₂ (fun v w => v.same w = true) vs ws)
    (hsame : ∀ a ∈ as, ∀ b ∈ bs, ∀ v w, Rearranged a v → Rearranged b w → v.same w = true →
      a.same b = true) :
    List.Forall₂ (fun a b => a.same b = true) as bs :=
  forall₂_of_square h hav.flip hbw.flip fun v _ w _ a ha b hb hvw hav hbw =>
    hsame a ha b hb v w hav hbw hvw

/-- **The order of fields makes no difference to sameness**: two values are the same if they are
with their fields in another order. -/
theorem same_of_same {a b v w : Value} (ha : a.isWellFormed = true) (hb : b.isWellFormed = true)
    (hav : Rearranged a v) (hbw : Rearranged b w) (h : v.same w = true) : a.same b = true := by
  induction a, b using pair_induction generalizing v w with
  | step a b ih =>
    cases hav with
    | null htu =>
      cases hbw with
      | null hdc => exact Ty.same_of_same hb htu hdc h
      | _ => cases h
    | unknown htu =>
      cases hbw with
      | unknown hdc => exact Ty.same_of_same hb htu hdc h
      | _ => cases h
    | string | number | bool => cases hbw <;> exact h
    | list htu hvs =>
      cases hbw with
      | list hdu hws =>
        have helements := isWellFormed_of_mem_elements ha rfl
        have hothers := isWellFormed_of_mem_elements hb rfl
        rw [isWellFormed, Bool.and_eq_true] at ha hb
        obtain ⟨_, _, ⟨⟩, htypes, hsame⟩ := same_list_iff.mp h
        refine same_list_iff.mpr ⟨_, _, rfl, Ty.same_of_same hb.1 htu hdu htypes,
          forall₂_same_of_same hvs hws hsame ?_⟩
        exact fun e he d hd _ _ => (ih e he d hd).1 (helements e he) (hothers d hd)
      | _ => cases h
    | set htu hvs =>
      cases hbw with
      | set hdu hws =>
        have helements := isWellFormed_of_mem_elements ha rfl
        have hothers := isWellFormed_of_mem_elements hb rfl
        rw [isWellFormed, Bool.and_eq_true] at ha hb
        obtain ⟨_, _, ⟨⟩, htypes, hlength, hmembers⟩ := same_set_iff.mp h
        refine same_set_iff.mpr ⟨_, _, rfl, Ty.same_of_same hb.1 htu hdu htypes,
          hvs.length_eq.trans (hlength.trans hws.length_eq.symm), fun e he => ?_⟩
        obtain ⟨v, hv, hev⟩ := exists_mem_right hvs he
        obtain ⟨w, hw, hwv⟩ := hmembers v hv
        obtain ⟨d, hd, hdw⟩ := exists_mem_left hws hw
        -- elements are compared the other way round than the sets
        exact ⟨d, hd, (ih e he d hd).2 (hothers d hd) (helements e he) hdw hev hwv⟩
      | _ => cases h
    | map htu hvkeys hvs =>
      cases hbw with
      | map hdu hwkeys hws =>
        have hentries := isWellFormed_of_mem_named ha rfl
        have hothers := isWellFormed_of_mem_named hb rfl
        rw [isWellFormed, Bool.and_eq_true, Bool.and_eq_true] at ha hb
        obtain ⟨_, _, ⟨⟩, htypes, haligned⟩ := same_map_iff.mp h
        obtain ⟨hkeys, hvalues⟩ := Fields.aligned_iff.mp haligned
        refine same_map_iff.mpr ⟨_, _, rfl, Ty.same_of_same hb.1.1 htu hdu htypes,
          Fields.aligned_iff.mpr ⟨hvkeys.trans (hkeys.trans hwkeys.symm),
            forall₂_same_of_same hvs hws hvalues ?_⟩⟩
        intro e he d hd _ _
        obtain ⟨entry, hentry, rfl⟩ := List.mem_map.mp he
        obtain ⟨other, hother, rfl⟩ := List.mem_map.mp hd
        exact (ih _ he _ hd).1 (hentries entry hentry) (hothers other hother)
      | _ => cases h
    | object hvnames hvs =>
      cases hbw with
      | object hwnames hws =>
        have hfields := isWellFormed_of_mem_named ha rfl
        have hothers := isWellFormed_of_mem_named hb rfl
        obtain ⟨_, ⟨⟩, hlength, hsame⟩ := same_object_iff.mp h
        have hvlength := hvnames.length_eq
        have hwlength := hwnames.length_eq
        simp only [Fields.names, List.length_map] at hvlength hwlength
        refine same_object_iff.mpr ⟨_, rfl, hvlength.trans (hlength.trans hwlength.symm),
          fun field hfield => ?_⟩
        obtain ⟨name, e⟩ := field
        rw [isWellFormed, Bool.and_eq_true, decide_eq_true_iff] at ha
        -- the field, its partner, what that equals, and the field that this is a partner of
        obtain ⟨v, hv, hev⟩ := Fields.exists_lookup_of_perm hvnames hvs
          (Fields.lookup_of_mem ha.1 hfield)
        obtain ⟨w, hw, hvw⟩ := hsame (name, v) (Fields.mem_of_lookup hv)
        obtain ⟨d, hd, hdw⟩ := Fields.exists_lookup_of_perm (S := flip Rearranged) hwnames.symm
          (fun name w d hw hd => hws name d w hd hw) hw
        have hmem := Fields.mem_of_lookup hd
        exact ⟨d, hd, (ih e (List.mem_map_of_mem hfield) d (List.mem_map_of_mem hmem)).1
          (hfields _ hfield) (hothers _ hmem) hev hdw hvw⟩
      | _ => cases h

end Rearranged

/-- Elements of which none is the same as a later one are so in another order of their fields. -/
theorem pairwise_of_rearranged {vs ws : List Value} (hvs : ∀ v ∈ vs, v.isWellFormed = true)
    (hvw : List.Forall₂ Rearranged vs ws) (h : vs.Pairwise fun v w => v.same w = false) :
    ws.Pairwise fun v w => v.same w = false := by
  refine pairwise_of_forall₂ hvw h fun a ha b hb c d hac hbd hapart => ?_
  refine Bool.eq_false_iff.mpr fun hsame => ?_
  exact Bool.eq_false_iff.mp hapart (hac.same_of_same (hvs a ha) (hvs b hb) hbd hsame)

theorem pairwise_of_reordered {vs ws : List Value} (hvs : ∀ v ∈ vs, v.isWellFormed = true)
    (hvw : List.Forall₂ Reordered vs ws) (h : vs.Pairwise fun v w => v.same w = false) :
    ws.Pairwise fun v w => v.same w = false :=
  have hrearranged := forall₂_imp_of_mem hvw fun v hv _ _ => Reordered.rearranged (hvs v hv)
  pairwise_of_rearranged hvs hrearranged h

end Value

end ProviderMock
