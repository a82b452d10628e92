import ProviderMock.Proofs.Noninterference
import ProviderMock.Proofs.Reordering
import ProviderMock.Proofs.Reports

/-!
# Saturated targets

A target that has everything that a schema declares, and lacks no computed value, is *saturated*:
there is nothing for a synthesis to fill. What comes out is what went in, whatever there is in the
replacement; only the order of fields is that of the schema.

* **values** — `Saturated.reordered`: all that completes a saturated target is the target with its
  fields in another order. In particular no set loses an element.
* **effects** — `Saturated.isUnset_of_mem_visits`: a walk visits no unset leaf, so it draws nothing
  and converts nothing. What it may still report is the shape of the replacement.
-/

namespace ProviderMock

namespace Synthesis

open Value (Reordered)

mutual

/-- A field has everything that is declared for it: a computed leaf is set, and nested objects are
objects in a collection of the declared kind and type, with fields that have everything and no
others. No element of a set is the same as a later one. -/
def Saturated (mode : Mode) : Part → Value → Prop
  | .leaf _ computed, v => computed = true → mode.isUnset v = false
  | .nested .single parts, v =>
    ∃ fields, v = .object fields ∧ (Fields.names fields).Perm (Fields.names parts) ∧
      SaturatedFields mode parts v
  | .nested (.many collection) parts, v =>
    ∃ t elements, collection.contents? v = some (t, elements) ∧
      t.same (Part.objectType parts) = true ∧
      (∀ e ∈ elements, ∃ fields, e = .object fields ∧
        (Fields.names fields).Perm (Fields.names parts) ∧ SaturatedFields mode parts e) ∧
      (collection = .set → elements.Pairwise fun e f => e.same f = false)
termination_by structural p => p

/-- The fields of an object have everything that is declared for them. -/
def SaturatedFields (mode : Mode) : List (String × Part) → Value → Prop
  | [], _ => True
  | (name, part) :: rest, v =>
    Saturated mode part (v.fieldOr name part.type) ∧ SaturatedFields mode rest v
termination_by structural ps => ps

end

/-- An object has the declared fields and no others, and they have everything. -/
def SaturatedObject (mode : Mode) (parts : List (String × Part)) (v : Value) : Prop :=
  ∃ fields, v = .object fields ∧ (Fields.names fields).Perm (Fields.names parts) ∧
    SaturatedFields mode parts v

variable {mode : Mode} {Fill : Ty → Value → Prop}

theorem saturatedFields_iff {parts : List (String × Part)} {v : Value} :
    SaturatedFields mode parts v ↔
      ∀ part ∈ parts, Saturated mode part.2 (v.fieldOr part.1 part.2.type) := by
  induction parts with
  | nil => simp [SaturatedFields]
  | cons part rest ih => simp [SaturatedFields, ih]

/-- All objects that a saturated field holds are saturated. -/
theorem Saturated.object_of_mem_objects {nesting : Nesting} {parts : List (String × Part)}
    {target : Value} (h : Saturated mode (.nested nesting parts) target) {path : Path} :
    ∀ object ∈ nesting.objects target path, SaturatedObject mode parts object.2 := by
  intro object hobject
  cases nesting with
  | single =>
    obtain rfl := List.mem_singleton.mp hobject
    exact h
  | many collection =>
    obtain ⟨t, elements, hcontents, -, helements, -⟩ := h
    obtain ⟨child, hchild, rfl⟩ := List.mem_map.mp hobject
    cases hchildren : collection.children? target with
    | none =>
      rw [hchildren] at hchild
      exact absurd hchild List.not_mem_nil
    | some children =>
      rw [hchildren] at hchild
      exact helements _ (Collection.mem_of_mem_children hcontents hchildren hchild)

/-! ## Values -/

/-- What completes a saturated object is the object with its fields in another order, if this goes
for each field. -/
theorem SaturatedObject.reordered_of_parts {parts : List (String × Part)}
    (hdistinct : Fields.Distinct parts)
    (h : ∀ part ∈ parts, ∀ target v, target.isWellFormed = true → Saturated mode part.2 target →
      Completes mode Fill part.2 target v → Reordered target v)
    {target v : Value} (htarget : target.isWellFormed = true)
    (hsaturated : SaturatedObject mode parts target)
    (hcompletes : CompletesObject mode Fill parts target v) : Reordered target v := by
  obtain ⟨fields, rfl, hnames, hfields⟩ := hsaturated
  obtain ⟨more, rfl, -, hmore⟩ := hcompletes.exists_fields hdistinct
  have haligned := completesFields_iff.mp hmore
  refine .object (hnames.trans (.of_eq haligned.names_eq)) fun name a b ha hb => ?_
  obtain ⟨part, hpart, hb⟩ := haligned.lookup hb
  have hmem := Fields.mem_of_lookup hpart
  have hfield : (Value.object fields).fieldOr name part.type = a := by
    rw [Value.fieldOr, ha]
    rfl
  have hsaturated := saturatedFields_iff.mp hfields _ hmem
  rw [hfield] at hb hsaturated
  exact h _ hmem a b (Value.isWellFormed_of_mem_named htarget rfl _ (Fields.mem_of_lookup ha))
    hsaturated hb

/-- **What completes a saturated target is the target with its fields in another order**, whatever
unset leaves are filled with. -/
theorem Saturated.reordered {part : Part} (hpart : part.Unambiguous) {target v : Value}
    (htarget : target.isWellFormed = true) (hsaturated : Saturated mode part target)
    (hcompletes : Completes mode Fill part target v) : Reordered target v := by
  induction part using Part.induction generalizing target v with
  | leaf t computed =>
    rw [Completes, if_neg] at hcompletes
    · subst hcompletes
      exact .refl htarget
    · rw [Bool.and_eq_true]
      rintro ⟨hcomputed, hunset⟩
      rw [hsaturated hcomputed] at hunset
      cases hunset
  | nested nesting parts ih =>
    obtain ⟨hdistinct, hparts⟩ := hpart
    rw [Part.allUnambiguous_iff] at hparts
    have hobject : ∀ {child w}, child.isWellFormed = true → SaturatedObject mode parts child →
        CompletesObject mode Fill parts child w → Reordered child w := fun hchild hsat hcomp =>
      hsat.reordered_of_parts hdistinct
        (fun part hpart _ _ ht hs hc => ih part hpart (hparts part hpart) ht hs hc) hchild hcomp
    cases nesting with
    | single => exact hobject htarget hsaturated hcompletes
    | many collection =>
      obtain ⟨t, elements, hcontents, htype, helements, hapart⟩ := hsaturated
      -- the elements come out one by one, each with its fields in another order
      have hall : (∀ e ∈ elements, e.isWellFormed = true) → ∀ {vs},
          List.Forall₂ (CompletesObject mode Fill parts) elements vs →
          List.Forall₂ Reordered elements vs := by
        intro hwell vs hvs
        have hboth := (List.forall₂_and_left _ _).mpr
          ⟨fun e he => And.intro (hwell e he) (helements e he), hvs⟩
        exact hboth.imp fun _ _ h => hobject h.1.1 h.1.2 h.2
      rcases Collection.contents?_cases hcontents with
        ⟨rfl, rfl⟩ | ⟨rfl, rfl⟩ | ⟨entries, rfl, rfl, rfl⟩
      · obtain ⟨vs, hvs, rfl⟩ := hcompletes.list rfl
        exact .list htype (hall (Value.isWellFormed_of_mem_elements htarget rfl) hvs)
      · obtain ⟨vs, hvs, rfl⟩ := hcompletes.set rfl
        have hwell := Value.isWellFormed_of_mem_elements htarget rfl
        have hreordered := hall hwell hvs
        rw [Value.setOf,
          Value.distinct_eq_self (Value.pairwise_of_reordered hwell hreordered (hapart rfl))]
        exact .set htype hreordered
      · obtain ⟨vs, hvs, rfl⟩ := hcompletes.map rfl
        have hascending := Value.ascending_of_isWellFormed htarget
        rw [Value.mapOf, Entries.ofList_eq_self (Entries.ascending_of_aligned hvs hascending)]
        obtain ⟨hkeys, hvalues⟩ := Fields.aligned_iff.mp hvs
        refine .map htype hkeys (hall (fun e he => ?_) hvalues)
        obtain ⟨entry, hentry, rfl⟩ := List.mem_map.mp he
        exact Value.isWellFormed_of_mem_named htarget rfl entry hentry

/-! ## Effects -/

/-- **A walk over a saturated target visits no unset leaf.** -/
theorem Saturated.isUnset_of_mem_visits {part : Part} {target : Value} {path : Path}
    (h : Saturated mode part target) {visit : Visit} (hvisit : visit ∈ part.visits target path)
    {t : Ty} (hleaf : visit.part = .leaf t true) : mode.isUnset visit.target = false := by
  induction part using Part.induction generalizing target path with
  | leaf u computed =>
    obtain rfl := List.mem_singleton.mp hvisit
    exact h (Part.leaf.inj hleaf).2
  | nested nesting parts ih =>
    rcases Part.mem_visits_nested.mp hvisit with rfl | ⟨object, hobject, hvisit⟩
    · cases hleaf
    · obtain ⟨-, -, -, hfields⟩ := h.object_of_mem_objects object hobject
      obtain ⟨part, hpart, hvisit⟩ := Part.mem_visitsFields.mp hvisit
      exact ih part hpart (saturatedFields_iff.mp hfields part hpart) hvisit

namespace Context

variable {context : Context} {r : Option Value}

/-- Visits that do not find an unset leaf draw nothing. -/
theorem generator_foldl_after {visits : List Visit}
    (h : ∀ visit ∈ visits, ∀ t, visit.part = .leaf t true →
      context.mode.isUnset visit.target = false) (p : Progress) :
    (visits.foldl (context.after r) p).generator = p.generator := by
  induction visits generalizing p with
  | nil => rfl
  | cons visit rest ih =>
    obtain ⟨hvisit, hrest⟩ := List.forall_mem_cons.mp h
    rw [List.foldl_cons, ih hrest, generator_after hvisit]

end Context

end Synthesis

open Synthesis

/-- **A saturated target is a fixed point**, whatever the replacement: a synthesis returns it with
its fields in another order at most, draws nothing, and reports no type mismatch. -/
theorem synthesize_of_saturated (schema : Block) (hschema : schema.isWellFormed = true)
    (hunambiguous : schema.isUnambiguous = true) (mode : Mode) (target : Value)
    (htarget : target.isWellFormed = true) (hsaturated : Saturated mode schema.root target)
    (r : Replacement) (g : Generator) :
    let done := synthesize mode schema target r g
    target.Reordered done.value ∧ done.generator = g ∧
      ∀ d ∈ done.diagnostics, ∀ want path range e, d ≠ .typeMismatch want path range e := by
  intro done
  have hroot : schema.root.Unambiguous := Block.unambiguous_parts schema hschema hunambiguous
  have hvisits : ∀ visit ∈ schema.visits target, ∀ t, visit.part = .leaf t true →
      mode.isUnset visit.target = false := fun visit hvisit t hleaf =>
    hsaturated.isUnset_of_mem_visits (Block.mem_visits_root hvisit) hleaf
  refine ⟨?_, ?_, ?_⟩
  · have hcompletes : Completes mode (fun _ _ => True) schema.root target done.value :=
      completes_synthesize (Q := fun _ => True) (fun _ _ _ _ _ => trivial)
        (fun _ _ _ _ _ _ _ => trivial) schema target (fun _ _ => trivial) g
    exact hsaturated.reordered hroot htarget hcompletes
  · have hprogress := (⟨mode, r.range⟩ : Context).progress_block schema target (r := r.usable.1)
      ⟨g, []⟩
    exact (congrArg Progress.generator hprogress).trans (Context.generator_foldl_after hvisits _)
  · rintro d hd want path range e rfl
    rcases mem_usable_or_exists_visit hd with h | ⟨visit, hvisit, hreport⟩
    · obtain ⟨t, heq⟩ := exists_of_mem_usable h
      exact Diagnostic.detail_nonObject_ne _ _ _ (congrArg Diagnostic.detail heq.symm)
    · rcases Context.report?_cases hreport with
        ⟨-, -, x, -, -, -, heq⟩ | ⟨t, -, -, hleaf, hunset, -, -, -⟩
      · exact Diagnostic.detail_nestedShape_ne _ _ _ _ (congrArg Diagnostic.detail heq.symm)
      · rw [hvisits visit hvisit t hleaf] at hunset
        cases hunset

/-! ### A network -/

/-- A gateway with its fields in another order than declared. -/
def savedGateway (address serial : String) : Value :=
  .object [("serial", .string serial), ("address", .string address)]

/-- A network that has everything: two rules with one serial number, a route and no subnets. -/
def savedNetwork : Value :=
  .object [("id", .string "i"), ("name", .null .string),
    ("route", .map (.object [("serial", .string), ("address", .string)])
      [("a", savedGateway "a" "s")]),
    ("rule", .set (.object [("serial", .string), ("address", .string)])
      [savedGateway "a" "s", savedGateway "b" "s"]),
    ("subnet", .list (.object [("address", .string), ("serial", .string)]) [])]

/-- A gateway in another order is saturated when it is planned. -/
theorem saturatedObject_savedGateway (address serial : String) :
    SaturatedObject .plan gateway.parts (savedGateway address serial) :=
  ⟨_, rfl, .swap "address" "serial" [], nofun, fun _ => rfl, trivial⟩

/-- Serial numbers that are no text, and subnets that are no object, are of no use for a network
that has everything: it is planned as it is. -/
theorem synthesize_of_saturated_savedNetwork :
    network.isWellFormed = true ∧ network.isUnambiguous = true ∧
      savedNetwork.isWellFormed = true ∧ Saturated .plan network.root savedNetwork ∧
      let r : Replacement := ⟨some (.object [("rule", .object [("serial", .list .string [])]),
        ("subnet", .bool false)]), SourceRange.unspecified⟩
      let done := planResource network savedNetwork r (Generator.seeded 0)
      savedNetwork.Reordered done.value ∧ done.generator = Generator.seeded 0 ∧
        ∀ d ∈ done.diagnostics, ∀ want path range e, d ≠ .typeMismatch want path range e := by
  have hsaturated : Saturated .plan network.root savedNetwork := by
    refine ⟨_, rfl, by decide, nofun, fun _ => rfl, ⟨_, [], rfl, by decide, nofun, nofun⟩,
      ⟨_, _, rfl, by decide, ?_, fun _ => by decide⟩, ⟨_, _, rfl, by decide, ?_, nofun⟩, trivial⟩
    · exact List.forall_mem_cons.mpr ⟨saturatedObject_savedGateway "a" "s",
        List.forall_mem_singleton.mpr (saturatedObject_savedGateway "b" "s")⟩
    · exact List.forall_mem_singleton.mpr (saturatedObject_savedGateway "a" "s")
  exact ⟨by decide, by decide, by decide, hsaturated,
    synthesize_of_saturated network (by decide) (by decide) .plan savedNetwork (by decide)
      hsaturated _ (Generator.seeded 0)⟩

end ProviderMock
