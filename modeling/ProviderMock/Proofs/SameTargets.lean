import ProviderMock.Proofs.Congruence
import ProviderMock.Proofs.Idempotence
import ProviderMock.Proofs.Sameness
import ProviderMock.Proofs.Soundness

/-!
# Targets that are the same

What a walk reads of two targets that are the same, and what it builds of them.

* **fields** — `Value.same_fieldOr`: targets that are the same have the same under every name.
* **modes** — both are to be filled, or both not.
* **collections** — `Collection.sameChildren_of_same`: their children are the same, those of a set
  in any order. `Collection.same_build`: collections are the same if they are built of what is made
  of the same children.
-/

namespace ProviderMock

open Fields (Aligned)

/-! ## Fields -/

namespace Value

/-- The fields of proper targets are proper. -/
theorem Proper.fieldOr {target : Value} (h : target.Proper) (name : String) {t : Ty}
    (ht : t.isWellFormed = true) : (target.fieldOr name t).Proper := by
  rw [proper_iff] at h ⊢
  exact ⟨robust_isOrdered.fieldOr h.1 name ht, robust_holdsApart.fieldOr h.2 name ht⟩

/-- Targets that are the same have the same under every name. -/
theorem same_fieldOr {v w : Value} (hv : v.Proper) (hvw : v.same w = true) (name : String)
    {t u : Ty} (htu : t.same u = true) : (v.fieldOr name t).same (w.fieldOr name u) = true := by
  cases v with
  | object as =>
    obtain ⟨bs, rfl, -⟩ := same_object_iff.mp hvw
    obtain ⟨hnames, hsame⟩ :=
      (same_object_iff_of_distinct (distinct_of_isWellFormed hv.wellFormed)).mp hvw
    have hiff := Fields.mem_names_iff.symm.trans ((hnames.mem_iff (a := name)).trans
      Fields.mem_names_iff)
    cases ha : as.lookup name with
    | some a =>
      obtain ⟨b, hb⟩ := hiff.mp ⟨a, ha⟩
      rw [Value.fieldOr, Value.fieldOr, ha, hb]
      exact hsame name a b ha hb
    | none =>
      cases hb : bs.lookup name with
      | some b =>
        obtain ⟨a, ha'⟩ := hiff.mpr ⟨b, hb⟩
        cases ha.symm.trans ha'
      | none =>
        rw [Value.fieldOr, Value.fieldOr, ha, hb]
        exact htu
  | unknown a =>
    obtain ⟨b, rfl, -⟩ := same_unknown_iff.mp hvw
    exact htu
  | _ => cases w <;> first | exact htu | cases hvw

end Value

/-! ## Modes -/

/-- Targets that are the same are both still to be filled, or both not. -/
theorem Mode.isUnset_of_same (mode : Mode) {v w : Value} (h : v.same w = true) :
    mode.isUnset v = mode.isUnset w := by
  cases mode with
  | read | plan => exact Value.isNull_of_same h
  | apply => exact Value.isUnknown_of_same h

/-- Targets that are the same both become an empty collection, or both do not. -/
theorem Mode.empties_of_same (mode : Mode) {v w : Value} (h : v.same w = true) :
    mode.empties v = mode.empties w := by
  rw [empties, empties, Value.isNull_of_same h, Value.isUnknown_of_same h]

/-! ## Collections -/

namespace Collection

/-- Children are the same under the same steps; those of sets under any steps. -/
def SameChildren (collection : Collection) (children others : List (PathStep × Value)) : Prop :=
  match collection with
  | .list | .map => List.Forall₂ (fun c d => c.1 = d.1 ∧ c.2.same d.2 = true) children others
  | .set => (∀ c ∈ children, ∃ d ∈ others, c.2.same d.2 = true) ∧
      ∀ d ∈ others, ∃ c ∈ children, c.2.same d.2 = true

/-- Values that are the same are both collections of a kind, or both not. -/
theorem isSome_children?_of_same (collection : Collection) {v w : Value} (h : v.same w = true) :
    (collection.children? v).isSome = (collection.children? w).isSome := by
  cases collection <;> cases v <;> cases w <;> first | rfl | cases h

/-- The children of a value are parts of it. -/
theorem mem_parts_of_mem_children {collection : Collection} {v : Value}
    {children : List (PathStep × Value)} (h : collection.children? v = some children)
    {child : PathStep × Value} (hchild : child ∈ children) : child.2 ∈ v.parts := by
  cases collection with
  | list | set =>
    obtain ⟨elements, helements, rfl⟩ := Option.map_eq_some_iff.mp h
    obtain ⟨-, -, hmem⟩ := exists_index_of_mem_indexed hchild
    rw [Value.parts_of_elements helements]
    exact hmem
  | map =>
    obtain ⟨entries, hentries, rfl⟩ := Option.map_eq_some_iff.mp h
    obtain ⟨entry, hentry, rfl⟩ := List.mem_map.mp hchild
    rw [Value.parts_of_named hentries]
    exact List.mem_map_of_mem hentry

/-- The children of a value of a collection type conform to the element type. -/
theorem conforms_of_mem_children {collection : Collection} {v : Value} {t : Ty}
    (hv : Conforms v (collection.type t)) {children : List (PathStep × Value)}
    (h : collection.children? v = some children) {child : PathStep × Value}
    (hchild : child ∈ children) : Conforms child.2 t := by
  cases collection with
  | list =>
    obtain ⟨elements, helements, rfl⟩ := Option.map_eq_some_iff.mp h
    obtain ⟨-, -, hmem⟩ := exists_index_of_mem_indexed hchild
    exact Conforms.elements (.inl hv) helements _ hmem
  | set =>
    obtain ⟨elements, helements, rfl⟩ := Option.map_eq_some_iff.mp h
    obtain ⟨-, -, hmem⟩ := exists_index_of_mem_indexed hchild
    exact Conforms.elements (.inr hv) helements _ hmem
  | map =>
    obtain ⟨entries, hentries, rfl⟩ := Option.map_eq_some_iff.mp h
    obtain ⟨entry, hentry, rfl⟩ := List.mem_map.mp hchild
    exact (hv.entries hentries).2 entry hentry

/-- Every element has a position. -/
theorem exists_mem_indexed {values : List Value} {v : Value} (h : v ∈ values) (start : Nat) :
    ∃ child ∈ indexed start values, child.2 = v :=
  List.mem_map.mp ((map_snd_indexed start values).symm ▸ h)

/-- Values of a collection type that are the same have children that are. -/
theorem sameChildren_of_same {collection : Collection} {v w : Value} {t : Ty} (hv : v.Proper)
    (hw : w.Proper) (hconforms : Conforms v (collection.type t)) (hvw : v.same w = true)
    {children others : List (PathStep × Value)} (hchildren : collection.children? v = some children)
    (hothers : collection.children? w = some others) :
    collection.SameChildren children others := by
  cases collection with
  | list =>
    cases hconforms with
    | @list t _ as _ _ =>
      obtain ⟨u, bs, rfl, -, hab⟩ := Value.same_list_iff.mp hvw
      obtain rfl := Option.some.inj hchildren
      obtain rfl := Option.some.inj hothers
      exact forall₂_indexed hab 0
    | _ => cases hchildren
  | set =>
    cases hconforms with
    | @set t _ as _ _ =>
      obtain ⟨u, bs, rfl, -, -, hab⟩ := Value.same_set_iff.mp hvw
      obtain ⟨_, _, heq, -, -, hba⟩ := Value.same_set_iff.mp (Value.same_symm hv hw hvw)
      obtain ⟨-, rfl⟩ := Value.set.inj heq
      obtain rfl := Option.some.inj hchildren
      obtain rfl := Option.some.inj hothers
      refine ⟨fun c hc => ?_, fun d hd => ?_⟩
      · obtain ⟨-, -, ha⟩ := exists_index_of_mem_indexed hc
        obtain ⟨b, hb, hbc⟩ := hab _ ha
        obtain ⟨d, hd, rfl⟩ := exists_mem_indexed hb 0
        exact ⟨d, hd, Value.same_symm (hw.of_mem_parts hb) (hv.of_mem_parts ha) hbc⟩
      · obtain ⟨-, -, hb⟩ := exists_index_of_mem_indexed hd
        obtain ⟨a, ha, had⟩ := hba _ hb
        obtain ⟨c, hc, rfl⟩ := exists_mem_indexed ha 0
        exact ⟨c, hc, had⟩
    | _ => cases hchildren
  | map =>
    cases hconforms with
    | @map t _ as _ _ =>
      obtain ⟨u, bs, rfl, -, hab⟩ := Value.same_map_iff.mp hvw
      obtain rfl := Option.some.inj hchildren
      obtain rfl := Option.some.inj hothers
      exact Synthesis.forall₂_keyed hab
    | _ => cases hchildren

/-- Results that are related under the same steps build maps of related entries. -/
theorem exists_entries {R : Value → Value → Prop} {results more : List (PathStep × Value)}
    (h : List.Forall₂ (fun a b => a.1 = b.1 ∧ R a.2 b.2) results more) :
    ∃ as bs, Aligned (fun _ => R) as bs ∧ (∀ t, Collection.map.build t results = .mapOf t as) ∧
      ∀ t, Collection.map.build t more = .mapOf t bs := by
  refine ⟨_, _, ?_, fun _ => rfl, fun _ => rfl⟩
  induction h with
  | nil => exact .nil
  | @cons a b _ _ hab _ ih =>
    obtain ⟨step, a⟩ := a
    obtain ⟨_, b⟩ := b
    obtain ⟨rfl, hab⟩ := hab
    cases step with
    | key k => exact .cons ⟨rfl, hab⟩ ih
    | _ => exact ih

/-- Empty collections are the same. -/
theorem same_build_nil (collection : Collection) {t u : Ty} (htu : t.same u = true) :
    (collection.build t []).same (collection.build u []) = true := by
  cases collection with
  | list => exact Value.same_list_iff.mpr ⟨u, [], rfl, htu, .nil⟩
  | set => exact Value.same_set_iff.mpr ⟨u, [], rfl, htu, rfl, nofun⟩
  | map => exact Value.same_map_iff.mpr ⟨u, [], rfl, htu, .nil⟩

/-- Collections are the same if what they are built of is the same one by one, with the same
steps. -/
theorem same_build_of_forall₂ {collection : Collection} {t u : Ty} (htu : t.same u = true)
    {results more : List (PathStep × Value)}
    (h : List.Forall₂ (fun a b => a.1 = b.1 ∧ a.2.same b.2 = true) results more)
    (hproper : ∀ a ∈ results, a.2.Proper) (hproper' : ∀ b ∈ more, b.2.Proper) :
    (collection.build t results).same (collection.build u more) = true := by
  have hvalues : List.Forall₂ (fun v w => v.same w = true) (results.map Prod.snd)
      (more.map Prod.snd) :=
    List.forall₂_map_left_iff.mpr (List.forall₂_map_right_iff.mpr (h.imp fun a b hab => hab.2))
  cases collection with
  | list => exact Value.same_list_iff.mpr ⟨u, _, rfl, htu, hvalues⟩
  | set =>
    exact Value.same_setOf_of_forall₂ htu (List.forall_mem_map.mpr hproper)
      (List.forall_mem_map.mpr hproper') hvalues
  | map =>
    obtain ⟨as, bs, hab, has, hbs⟩ := exists_entries (R := fun a b => a.same b = true) h
    rw [has, hbs]
    exact Value.same_map_iff.mpr ⟨u, _, rfl, htu, Entries.aligned_ofList hab⟩

/-- Collections are the same if what they are built of is made of the same children. -/
theorem same_build {collection : Collection} {t u : Ty} (htu : t.same u = true)
    {R S : Value → Value → Prop} {children others results more : List (PathStep × Value)}
    (h : collection.SameChildren children others)
    (hresults : List.Forall₂ (fun c a => c.1 = a.1 ∧ R c.2 a.2) children results)
    (hmore : List.Forall₂ (fun d b => d.1 = b.1 ∧ S d.2 b.2) others more)
    (hsame : ∀ c ∈ children, ∀ d ∈ others, ∀ a b, c.2.same d.2 = true → R c.2 a → S d.2 b →
      a.same b = true)
    (hproper : ∀ a ∈ results, a.2.Proper) (hproper' : ∀ b ∈ more, b.2.Proper) :
    (collection.build t results).same (collection.build u more) = true := by
  -- in order, results have the steps of their children, and are the same
  have hordered : List.Forall₂ (fun c d => c.1 = d.1 ∧ c.2.same d.2 = true) children others →
      List.Forall₂ (fun a b => a.1 = b.1 ∧ a.2.same b.2 = true) results more := by
    refine fun h => forall₂_of_square h hresults hmore ?_
    intro c hc d hd a _ b _ hcd hca hdb
    exact ⟨hca.1.symm.trans (hcd.1.trans hdb.1), hsame c hc d hd a.2 b.2 hcd.2 hca.2 hdb.2⟩
  cases collection with
  | list | map => exact same_build_of_forall₂ htu (hordered h) hproper hproper'
  | set =>
    obtain ⟨hright, hleft⟩ := h
    refine Value.same_setOf htu (List.forall_mem_map.mpr hproper)
      (List.forall_mem_map.mpr hproper') ?_ ?_
    · refine List.forall_mem_map.mpr fun a ha => ?_
      obtain ⟨c, hc, hca⟩ := exists_mem_left hresults ha
      obtain ⟨d, hd, hcd⟩ := hright c hc
      obtain ⟨b, hb, hdb⟩ := exists_mem_right hmore hd
      exact ⟨b.2, List.mem_map_of_mem hb, hsame c hc d hd _ _ hcd hca.2 hdb.2⟩
    · refine List.forall_mem_map.mpr fun b hb => ?_
      obtain ⟨d, hd, hdb⟩ := exists_mem_left hmore hb
      obtain ⟨c, hc, hcd⟩ := hleft d hd
      obtain ⟨a, ha, hca⟩ := exists_mem_right hresults hc
      have hab := hsame c hc d hd _ _ hcd hca.2 hdb.2
      exact ⟨a.2, List.mem_map_of_mem ha, Value.same_symm (hproper a ha) (hproper' b hb) hab⟩

end Collection

end ProviderMock
