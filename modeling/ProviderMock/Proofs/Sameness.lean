import ProviderMock.Proofs.Everywhere
import ProviderMock.Proofs.Reordering

/-!
# Sameness of values

Sameness is decided from the left: the elements of one set are looked for in the other, and the
fields of one object are looked up in the other. Where the elements of both sets are apart this
makes no difference, because as many elements that are apart leave nothing of the other set over.

* **matching** — `exists_matching`: things that are apart have partners that are apart.
* **equivalence** — `Value.same_trans` holds of all values, `Value.same_symm` of two values whose
  sets have apart elements, and `Value.same_self` of values without not-a-number.
* **sets** — `Value.same_setOf`: lists that hold the same values collapse to the same set.
-/

namespace ProviderMock

/-! ## Matching -/

section Matching

variable {α β : Type} {R : α → β → Prop} {xs : List α} {ys : List β}

/-- If everything has a partner, and no two have a common one, then there are partners for all at
different places. -/
theorem exists_matching (hapart : xs.Pairwise fun a b => ∀ y ∈ ys, R a y → ¬ R b y)
    (h : ∀ x ∈ xs, ∃ y ∈ ys, R x y) : ∃ zs, List.Forall₂ R xs zs ∧ zs.Subperm ys := by
  induction xs generalizing ys with
  | nil => exact ⟨[], .nil, List.nil_subperm⟩
  | cons x rest ih =>
    obtain ⟨hfirst, hrest⟩ := List.pairwise_cons.mp hapart
    obtain ⟨y, hy, hxy⟩ := h x List.mem_cons_self
    -- the partner of the first is set aside: it is none of the others'
    obtain ⟨before, after, rfl⟩ := List.append_of_mem hy
    have hperm : (y :: (before ++ after)).Perm (before ++ y :: after) := List.perm_middle.symm
    have hothers : ∀ b ∈ rest, ∃ z ∈ before ++ after, R b z := by
      intro b hb
      obtain ⟨z, hz, hbz⟩ := h b (List.mem_cons_of_mem _ hb)
      rcases List.mem_cons.mp (hperm.mem_iff.mpr hz) with rfl | hz
      · exact absurd hbz (hfirst b hb z hy hxy)
      · exact ⟨z, hz, hbz⟩
    have hsub : ∀ z ∈ before ++ after, z ∈ before ++ y :: after :=
      fun z hz => hperm.mem_iff.mp (List.mem_cons_of_mem _ hz)
    obtain ⟨zs, hzs, hsubperm⟩ :=
      ih (hrest.imp fun hab z hz => hab z (hsub z hz)) hothers
    exact ⟨y :: zs, .cons hxy hzs, ((List.subperm_cons y).mpr hsubperm).trans hperm.subperm⟩

/-- As many partners as there are things with different ones leave nothing over. -/
theorem exists_mem_of_matching (hapart : xs.Pairwise fun a b => ∀ y ∈ ys, R a y → ¬ R b y)
    (h : ∀ x ∈ xs, ∃ y ∈ ys, R x y) (hlength : ys.length ≤ xs.length) {y : β} (hy : y ∈ ys) :
    ∃ x ∈ xs, R x y := by
  obtain ⟨zs, hzs, hsubperm⟩ := exists_matching hapart h
  have hperm := hsubperm.perm_of_length_le (Nat.le_trans hlength (Nat.le_of_eq hzs.length_eq))
  exact exists_mem_left hzs (hperm.mem_iff.mpr hy)

/-- Things with different partners are no more than what the partners are taken from. -/
theorem length_le_of_matching (hapart : xs.Pairwise fun a b => ∀ y ∈ ys, R a y → ¬ R b y)
    (h : ∀ x ∈ xs, ∃ y ∈ ys, R x y) : xs.length ≤ ys.length := by
  obtain ⟨zs, hzs, hsubperm⟩ := exists_matching hapart h
  exact Nat.le_trans (Nat.le_of_eq hzs.length_eq) hsubperm.length_le

end Matching

namespace Value

open Fields (Aligned)

/-! ## What is the same as a value -/

/-- Objects without repeated names are the same if they have the same names, in whatever order, and
the same under each. -/
theorem same_object_iff_of_distinct {as bs : List (String × Value)} (has : Fields.Distinct as) :
    (Value.object as).same (.object bs) = true ↔ (Fields.names as).Perm (Fields.names bs) ∧
      ∀ name a b, as.lookup name = some a → bs.lookup name = some b → a.same b = true := by
  rw [← Fields.exists_lookup_iff_of_distinct (S := fun a b => a.same b = true) has, same_object_iff]
  constructor
  · rintro ⟨_, heq, h⟩
    obtain rfl := Value.object.inj heq
    exact h
  · exact fun h => ⟨bs, rfl, h⟩

/-- Objects that are the same have the same under every name. -/
theorem same_of_field? {v w a b : Value} (h : v.same w = true) {name : String}
    (ha : v.field? name = some a) (hb : w.field? name = some b) : a.same b = true := by
  cases v with
  | object as =>
    obtain ⟨bs, rfl, -, hall⟩ := same_object_iff.mp h
    obtain ⟨b', hb', hab⟩ := hall _ (Fields.mem_of_lookup ha)
    obtain rfl := Option.some.inj (hb'.symm.trans hb)
    exact hab
  | _ => cases ha

theorem isNull_of_same {a b : Value} (h : a.same b = true) : a.isNull = b.isNull := by
  cases a <;> cases b <;> first | rfl | cases h

theorem isUnknown_of_same {a b : Value} (h : a.same b = true) : a.isUnknown = b.isUnknown := by
  cases a <;> cases b <;> first | rfl | cases h

/-! ## Equivalence -/

/-- Sameness of values is transitive. -/
theorem same_trans {a b c : Value} (hab : a.same b = true) (hbc : b.same c = true) :
    a.same c = true := by
  -- by induction on the value in the middle, of which the parts stay in the middle in a set
  induction b using Value.induction generalizing a c with
  | null u =>
    cases a with
    | null t =>
      obtain ⟨_, rfl, huw⟩ := same_null_iff.mp hbc
      exact Ty.same_trans hab huw
    | _ => cases hab
  | unknown u =>
    cases a with
    | unknown t =>
      obtain ⟨_, rfl, huw⟩ := same_unknown_iff.mp hbc
      exact Ty.same_trans hab huw
    | _ => cases hab
  | string s =>
    obtain rfl := same_string_iff.mp hbc
    exact hab
  | number y =>
    cases a with
    | number x =>
      obtain ⟨_, rfl, hyz⟩ := same_number_iff.mp hbc
      exact Double.same_trans hab hyz
    | _ => cases hab
  | bool s =>
    obtain rfl := same_bool_iff.mp hbc
    exact hab
  | list u bs ih =>
    cases a with
    | list t as =>
      obtain ⟨_, _, ⟨⟩, htu, hab⟩ := same_list_iff.mp hab
      obtain ⟨w, cs, rfl, huw, hbc⟩ := same_list_iff.mp hbc
      exact same_list_iff.mpr ⟨w, cs, rfl, Ty.same_trans htu huw,
        forall₂_trans hab hbc fun _ _ b hb _ _ => ih b hb⟩
    | _ => cases hab
  | set u bs ih =>
    cases a with
    | set t as =>
      obtain ⟨_, _, ⟨⟩, htu, hlength, hab⟩ := same_set_iff.mp hab
      obtain ⟨w, cs, rfl, huw, hlength', hbc⟩ := same_set_iff.mp hbc
      refine same_set_iff.mpr ⟨w, cs, rfl, Ty.same_trans htu huw, hlength.trans hlength',
        fun a ha => ?_⟩
      obtain ⟨b, hb, hba⟩ := hab a ha
      obtain ⟨c, hc, hcb⟩ := hbc b hb
      exact ⟨c, hc, ih b hb hcb hba⟩
    | _ => cases hab
  | map u bs ih =>
    cases a with
    | map t as =>
      obtain ⟨_, _, ⟨⟩, htu, hab⟩ := same_map_iff.mp hab
      obtain ⟨w, cs, rfl, huw, hbc⟩ := same_map_iff.mp hbc
      exact same_map_iff.mpr ⟨w, cs, rfl, Ty.same_trans htu huw, forall₂_trans hab hbc
        fun _ _ b hb _ _ hab hbc => ⟨hab.1.trans hbc.1, ih b hb hab.2 hbc.2⟩⟩
    | _ => cases hab
  | object bs ih =>
    cases a with
    | object as =>
      obtain ⟨_, ⟨⟩, hlength, hab⟩ := same_object_iff.mp hab
      obtain ⟨cs, rfl, hlength', hbc⟩ := same_object_iff.mp hbc
      refine same_object_iff.mpr ⟨cs, rfl, hlength.trans hlength', fun a ha => ?_⟩
      obtain ⟨b, hb, hab⟩ := hab a ha
      have hmem := Fields.mem_of_lookup hb
      obtain ⟨c, hc, hbc⟩ := hbc _ hmem
      exact ⟨c, hc, ih _ hmem hab hbc⟩
    | _ => cases hab

/-- A well-formed value in which the elements of every set are apart. -/
structure Proper (v : Value) : Prop where
  wellFormed : v.isWellFormed = true
  collapsed : v.isCollapsed = true

/-- A value is proper if its names are in order and its sets hold elements apart, everywhere. -/
theorem proper_iff {v : Value} :
    v.Proper ↔ v.everywhere isOrdered = true ∧ v.everywhere holdsApart = true := by
  rw [everywhere_isOrdered]
  exact ⟨fun h => ⟨h.wellFormed, h.collapsed⟩, fun h => ⟨h.1, h.2⟩⟩

theorem Proper.of_mem_parts {v w : Value} (hv : v.Proper) (hw : w ∈ v.parts) : w.Proper := by
  rw [proper_iff, everywhere_iff, everywhere_iff] at hv
  exact proper_iff.mpr ⟨hv.1.2 w hw, hv.2.2 w hw⟩

/-- The fields of a proper value are proper. -/
theorem Proper.of_field {v w : Value} (hv : v.Proper) {name : String}
    (hw : v.field? name = some w) : w.Proper := by
  cases v with
  | object fields => exact hv.of_mem_parts (List.mem_map_of_mem (Fields.mem_of_lookup hw))
  | _ => cases hw

/-- The elements of a proper set are apart. -/
theorem Proper.pairwise {t : Ty} {as : List Value} (h : (Value.set t as).Proper) :
    as.Pairwise fun a b => a.same b = false := by
  have hset := (everywhere_iff.mp h.collapsed).1
  exact decide_eq_true_iff.mp hset

/-- Nothing in another set is equal to two elements that are apart, if sameness with them can be
turned round. -/
theorem pairwise_partners {as bs : List Value} (has : as.Pairwise fun a b => a.same b = false)
    (hsymm : ∀ a ∈ as, ∀ b ∈ bs, b.same a = true → a.same b = true) :
    as.Pairwise fun a b => ∀ c ∈ bs, c.same a = true → ¬ c.same b = true := by
  refine has.imp_of_mem fun ha _ hapart c hc hca hcb => ?_
  exact Bool.eq_false_iff.mp hapart (same_trans (hsymm _ ha c hc hca) hcb)

/-- Sameness of proper values is symmetric. -/
theorem same_symm {a b : Value} (ha : a.Proper) (hb : b.Proper) (h : a.same b = true) :
    b.same a = true := by
  induction a, b using pair_induction with
  | step a b ih =>
    have hordered : a.isOrdered = true := (everywhere_iff.mp (proper_iff.mp ha).1).1
    cases a with
    | null t =>
      obtain ⟨u, rfl, htu⟩ := same_null_iff.mp h
      exact Ty.same_symm hordered htu
    | unknown t =>
      obtain ⟨u, rfl, htu⟩ := same_unknown_iff.mp h
      exact Ty.same_symm hordered htu
    | string s =>
      obtain rfl := same_string_iff.mp h
      exact h
    | number x =>
      obtain ⟨y, rfl, hxy⟩ := same_number_iff.mp h
      exact same_number_iff.mpr ⟨x, rfl, Double.same_comm x y ▸ hxy⟩
    | bool s =>
      obtain rfl := same_bool_iff.mp h
      exact h
    | list t as =>
      obtain ⟨u, bs, rfl, htu, hab⟩ := same_list_iff.mp h
      refine same_list_iff.mpr ⟨t, as, rfl, Ty.same_symm hordered htu, List.Forall₂.flip ?_⟩
      exact forall₂_imp_of_mem hab fun a hmem b hmem' =>
        (ih a hmem b hmem').1 (ha.of_mem_parts hmem) (hb.of_mem_parts hmem')
    | set t as =>
      obtain ⟨u, bs, rfl, htu, hlength, hab⟩ := same_set_iff.mp h
      have hsymm : ∀ a ∈ as, ∀ b ∈ bs, b.same a = true → a.same b = true :=
        fun a hmem b hmem' =>
          (ih a hmem b hmem').2 (hb.of_mem_parts hmem') (ha.of_mem_parts hmem)
      refine same_set_iff.mpr
        ⟨t, as, rfl, Ty.same_symm hordered htu, hlength.symm, fun b hmem' => ?_⟩
      obtain ⟨a, hmem, hba⟩ := exists_mem_of_matching (pairwise_partners ha.pairwise hsymm) hab
        (Nat.le_of_eq hlength.symm) hmem'
      exact ⟨a, hmem, hsymm a hmem b hmem' hba⟩
    | map t as =>
      obtain ⟨u, bs, rfl, htu, hab⟩ := same_map_iff.mp h
      rw [isOrdered, Bool.and_eq_true] at hordered
      refine same_map_iff.mpr ⟨t, as, rfl, Ty.same_symm hordered.1 htu, List.Forall₂.flip ?_⟩
      refine forall₂_imp_of_mem hab fun a hmem b hmem' h => ⟨h.1.symm, ?_⟩
      have hmem := List.mem_map_of_mem (f := Prod.snd) hmem
      have hmem' := List.mem_map_of_mem (f := Prod.snd) hmem'
      exact (ih _ hmem _ hmem').1 (ha.of_mem_parts hmem) (hb.of_mem_parts hmem') h.2
    | object as =>
      obtain ⟨bs, rfl, -⟩ := same_object_iff.mp h
      have hdistinct := distinct_of_isWellFormed ha.wellFormed
      obtain ⟨hnames, hab⟩ := (same_object_iff_of_distinct hdistinct).mp h
      refine (same_object_iff_of_distinct (hnames.nodup_iff.mp hdistinct)).mpr
        ⟨hnames.symm, fun name b a hb' ha' => ?_⟩
      have hmem := List.mem_map_of_mem (f := Prod.snd) (Fields.mem_of_lookup ha')
      have hmem' := List.mem_map_of_mem (f := Prod.snd) (Fields.mem_of_lookup hb')
      exact (ih _ hmem _ hmem').1 (ha.of_mem_parts hmem) (hb.of_mem_parts hmem')
        (hab name a b ha' hb')

/-- Proper values may be compared from either side. -/
theorem Proper.same_comm {a b : Value} (ha : a.Proper) (hb : b.Proper) :
    a.same b = b.same a := by
  rw [Bool.eq_iff_iff]
  exact ⟨same_symm ha hb, same_symm hb ha⟩

/-- A well-formed value without not-a-number is the same as itself. -/
theorem same_self {v : Value} (hv : v.isWellFormed = true) (h : v.hasNoNaN = true) :
    v.same v = true := by
  rw [← everywhere_isOrdered] at hv
  induction v using Value.induction with
  | null t | unknown t => exact Ty.same_self hv
  | string s | bool b => exact beq_self_eq_true _
  | number x =>
    have hx : (!x.isNaN) = true := h
    exact (Double.same_self_iff x).mpr (by simpa using hx)
  | list t as ih =>
    rw [hasNoNaN, everywhere_iff] at h
    rw [everywhere_iff] at hv
    exact same_list_iff.mpr ⟨t, as, rfl, Ty.same_self hv.1,
      List.forall₂_same.mpr fun a ha => ih a ha (hv.2 a ha) (h.2 a ha)⟩
  | set t as ih =>
    rw [hasNoNaN, everywhere_iff] at h
    rw [everywhere_iff] at hv
    exact same_set_iff.mpr ⟨t, as, rfl, Ty.same_self hv.1, rfl,
      fun a ha => ⟨a, ha, ih a ha (hv.2 a ha) (h.2 a ha)⟩⟩
  | map t as ih =>
    rw [hasNoNaN, everywhere_iff] at h
    rw [everywhere_iff, isOrdered, Bool.and_eq_true] at hv
    refine same_map_iff.mpr ⟨t, as, rfl, Ty.same_self hv.1.1, List.forall₂_same.mpr ?_⟩
    intro a ha
    have hmem := List.mem_map_of_mem (f := Prod.snd) ha
    exact ⟨rfl, ih a ha (hv.2 _ hmem) (h.2 _ hmem)⟩
  | object as ih =>
    rw [hasNoNaN, everywhere_iff] at h
    rw [everywhere_iff, isOrdered, decide_eq_true_iff] at hv
    refine same_object_iff.mpr ⟨as, rfl, rfl, fun a ha => ?_⟩
    have hmem := List.mem_map_of_mem (f := Prod.snd) ha
    exact ⟨a.2, Fields.lookup_of_mem hv.1 ha, ih a ha (hv.2 _ hmem) (h.2 _ hmem)⟩

/-- A proper value without not-a-number: one that is the same as itself. -/
structure Regular (v : Value) : Prop extends v.Proper where
  numbers : v.hasNoNaN = true

theorem Regular.same_self {v : Value} (hv : v.Regular) : v.same v = true :=
  Value.same_self hv.wellFormed hv.numbers

theorem Regular.of_mem_parts {v : Value} (hv : v.Regular) {w : Value} (hw : w ∈ v.parts) :
    w.Regular where
  toProper := hv.toProper.of_mem_parts hw
  numbers := (everywhere_iff.mp hv.numbers).2 w hw

/-- What a regular value converts to is regular. -/
theorem Regular.convert {t : Ty} {v w : Value} (hv : v.Regular) (ht : t.isWellFormed = true)
    (h : v.convert t = .ok w) : w.Regular := by
  obtain ⟨hordered, hcollapsed⟩ := proper_iff.mp hv.toProper
  exact ⟨proper_iff.mpr ⟨robust_isOrdered.convert h ht hordered,
    robust_holdsApart.convert h ht hcollapsed⟩, robust_isComparable.convert h ht hv.numbers⟩

/-! ## Sets -/

/-- Lists that hold the same values, in any order and number, collapse to the same set. -/
theorem same_setOf {t u : Ty} (htu : t.same u = true) {vs ws : List Value}
    (hvs : ∀ v ∈ vs, v.Proper) (hws : ∀ w ∈ ws, w.Proper)
    (hvw : ∀ v ∈ vs, ∃ w ∈ ws, v.same w = true) (hwv : ∀ w ∈ ws, ∃ v ∈ vs, w.same v = true) :
    (setOf t vs).same (setOf u ws) = true := by
  -- what is held of a list has its partner in what is held of the other
  have hpartner : ∀ {xs ys : List Value}, (∀ x ∈ xs, x.Proper) → (∀ y ∈ ys, y.Proper) →
      (∀ x ∈ xs, ∃ y ∈ ys, x.same y = true) →
      ∀ x ∈ distinct xs, ∃ y ∈ distinct ys, y.same x = true := by
    intro xs ys hxs hys hxy x hx
    have hx := (sublist_distinct xs).subset hx
    obtain ⟨y, hy, hsame⟩ := hxy x hx
    have hyx : y.same x = true := same_symm (hxs x hx) (hys y hy) hsame
    obtain ⟨e, he, rfl | hey⟩ := holds_distinct hy
    · exact ⟨e, he, hyx⟩
    · exact ⟨e, he, same_trans hey hyx⟩
  have hle : ∀ {xs ys : List Value}, (∀ x ∈ xs, x.Proper) → (∀ y ∈ ys, y.Proper) →
      (∀ x ∈ xs, ∃ y ∈ ys, x.same y = true) → (distinct xs).length ≤ (distinct ys).length := by
    intro xs ys hxs hys hxy
    have hapart := pairwise_partners (pairwise_distinct xs) fun x hx y hy =>
      same_symm (hys y ((sublist_distinct ys).subset hy)) (hxs x ((sublist_distinct xs).subset hx))
    exact length_le_of_matching hapart (hpartner hxs hys hxy)
  exact same_set_iff.mpr ⟨u, distinct ws, rfl, htu,
    Nat.le_antisymm (hle hvs hws hvw) (hle hws hvs hwv), hpartner hvs hws hvw⟩

/-- Lists of the same values one by one collapse to the same set. -/
theorem same_setOf_of_forall₂ {t u : Ty} (htu : t.same u = true) {vs ws : List Value}
    (hvs : ∀ v ∈ vs, v.Proper) (hws : ∀ w ∈ ws, w.Proper)
    (h : List.Forall₂ (fun v w => v.same w = true) vs ws) :
    (setOf t vs).same (setOf u ws) = true := by
  refine same_setOf htu hvs hws (fun v hv => exists_mem_right h hv) fun w hw => ?_
  obtain ⟨v, hv, hvw⟩ := exists_mem_left h hw
  exact ⟨v, hv, same_symm (hvs v hv) (hws w hw) hvw⟩

end Value

end ProviderMock
