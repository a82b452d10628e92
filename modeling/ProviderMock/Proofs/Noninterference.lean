import ProviderMock.Proofs.Completion
import ProviderMock.Proofs.Sets
import ProviderMock.Proofs.WellFormed

/-!
# What a replacement and a generator can change

Two syntheses of one target in one mode, with whatever replacements and generators, differ in unset
computed leaves alone.

`Agree` is the relation of a target and two results that says so. Along the schema the results have
the same fields, lists of the same length in the order of the target, and maps with the keys of the
target; and at every leaf that is not computed, or is set, both have what the target has there. The
elements of a set may collapse differently in the two runs, so for a set each result by itself
*represents* the elements of the target.
-/

namespace ProviderMock

namespace Synthesis

open Fields (Aligned)

mutual

/-- The results `v` and `w` of a field agree on its target: they are alike, and as the target, but
for unset computed leaves. -/
def Agree (mode : Mode) : Part → Value → Value → Value → Prop
  | .leaf _ computed, target, v, w =>
    (computed && mode.isUnset target) = true ∨ (v = target ∧ w = target)
  | .nested .single parts, target, v, w => Objects (AgreeFields mode parts target) v w
  | .nested (.many .list) parts, target, v, w =>
    match target.elements? with
    | none =>
      v = w ∧ v = if mode.empties target then .list (Part.objectType parts) [] else target
    | some elements =>
      ∃ vs ws, v = .list (Part.objectType parts) vs ∧ w = .list (Part.objectType parts) ws ∧
        Forall₃ (fun e v w => Objects (AgreeFields mode parts e) v w) elements vs ws
  | .nested (.many .set) parts, target, v, w =>
    match target.elements? with
    | none =>
      v = w ∧ v = if mode.empties target then .set (Part.objectType parts) [] else target
    | some elements =>
      ∃ vs ws, v = .set (Part.objectType parts) vs ∧ w = .set (Part.objectType parts) ws ∧
        Represents (fun e v => Objects (AgreeFields mode parts e) v v) elements vs ∧
        Represents (fun e w => Objects (AgreeFields mode parts e) w w) elements ws
  | .nested (.many .map) parts, target, v, w =>
    match target.named? with
    | none =>
      v = w ∧ v = if mode.empties target then .map (Part.objectType parts) [] else target
    | some entries =>
      -- the entries of the target in the order of their keys
      ∃ vs ws, v = .map (Part.objectType parts) vs ∧ w = .map (Part.objectType parts) ws ∧
        Forall₃ (fun e v w => e.1 = v.1 ∧ e.1 = w.1 ∧ Objects (AgreeFields mode parts e.2) v.2 w.2)
          (Entries.ofList entries) vs ws
termination_by structural p => p

/-- The fields of two results are those of the schema, in declaration order, and agree on the fields
of the target. -/
def AgreeFields (mode : Mode) :
    List (String × Part) → Value → List (String × Value) → List (String × Value) → Prop
  | [], _, fields, more => fields = [] ∧ more = []
  | (name, part) :: rest, target, fields, more =>
    ∃ v vs w ws, fields = (name, v) :: vs ∧ more = (name, w) :: ws ∧
      Agree mode part (target.fieldOr name part.type) v w ∧ AgreeFields mode rest target vs ws
termination_by structural ps => ps

end

variable {mode : Mode} {F G : Ty → Value → Prop}

/-- Two completions of the fields of one target agree if those of each field do. -/
theorem agreeFields_of_completes {parts : List (String × Part)}
    (ih : ∀ p ∈ parts, ∀ target v w, Completes mode F p.2 target v → Completes mode G p.2 target w →
      Agree mode p.2 target v w)
    {target : Value} {fields more : List (String × Value)}
    (hfields : CompletesFields mode F parts target fields)
    (hmore : CompletesFields mode G parts target more) :
    AgreeFields mode parts target fields more := by
  induction parts generalizing fields more with
  | nil => exact ⟨hfields, hmore⟩
  | cons p rest ihrest =>
    obtain ⟨name, part⟩ := p
    obtain ⟨v, vs, rfl, hv, hvs⟩ := hfields
    obtain ⟨w, ws, rfl, hw, hws⟩ := hmore
    exact ⟨v, vs, w, ws, rfl, rfl, ih _ List.mem_cons_self _ v w hv hw,
      ihrest (fun p hp => ih p (List.mem_cons_of_mem _ hp)) hvs hws⟩

/-- Two completions of one object agree if those of each field do. -/
theorem CompletesObject.agree_of_parts {parts : List (String × Part)}
    (hdistinct : Fields.Distinct parts)
    (ih : ∀ p ∈ parts, ∀ target v w, Completes mode F p.2 target v → Completes mode G p.2 target w →
      Agree mode p.2 target v w)
    {target v w : Value} (hv : CompletesObject mode F parts target v)
    (hw : CompletesObject mode G parts target w) :
    Objects (AgreeFields mode parts target) v w := by
  obtain ⟨fields, rfl, -, hfields⟩ := hv.exists_fields hdistinct
  obtain ⟨more, rfl, -, hmore⟩ := hw.exists_fields hdistinct
  exact ⟨fields, more, rfl, rfl, agreeFields_of_completes ih hfields hmore⟩

/-- **Two completions of one target agree**, however each fills unset leaves. -/
theorem Completes.agree {part : Part} (hpart : part.Unambiguous) {target v w : Value}
    (hv : Completes mode F part target v) (hw : Completes mode G part target w) :
    Agree mode part target v w := by
  induction part using Part.induction generalizing target v w F G with
  | leaf t computed =>
    rw [Completes] at hv hw
    by_cases hunset : (computed && mode.isUnset target) = true
    · exact .inl hunset
    · rw [if_neg hunset] at hv hw
      exact .inr ⟨hv, hw⟩
  | nested nesting parts ih =>
    obtain ⟨hdistinct, hparts⟩ := hpart
    rw [Part.allUnambiguous_iff] at hparts
    have hobject : ∀ {F G : Ty → Value → Prop} {target v w},
        CompletesObject mode F parts target v → CompletesObject mode G parts target w →
        Objects (AgreeFields mode parts target) v w :=
      fun hv hw => hv.agree_of_parts hdistinct
        (fun p hp _ _ _ hv hw => ih p hp (hparts p hp) hv hw) hw
    cases nesting with
    | single => exact hobject hv hw
    | many collection =>
      cases collection with
      | list =>
        rw [Agree]
        cases helements : target.elements? with
        | none =>
          rw [hv.absent_list helements, hw.absent_list helements]
          exact ⟨rfl, rfl⟩
        | some elements =>
          obtain ⟨vs, hvs, rfl⟩ := hv.list helements
          obtain ⟨ws, hws, rfl⟩ := hw.list helements
          exact ⟨vs, ws, rfl, rfl, forall₃_of_forall₂ hvs hws fun _ _ _ _ hv hw => hobject hv hw⟩
      | set =>
        rw [Agree]
        cases helements : target.elements? with
        | none =>
          rw [hv.absent_set helements, hw.absent_set helements]
          exact ⟨rfl, rfl⟩
        | some elements =>
          obtain ⟨vs, hvs, rfl⟩ := hv.set helements
          obtain ⟨ws, hws, rfl⟩ := hw.set helements
          exact ⟨_, _, rfl, rfl, represents_distinct (hvs.imp fun _ _ hv => hobject hv hv),
            represents_distinct (hws.imp fun _ _ hw => hobject hw hw)⟩
      | map =>
        rw [Agree]
        cases hentries : target.named? with
        | none =>
          rw [hv.absent_map hentries, hw.absent_map hentries]
          exact ⟨rfl, rfl⟩
        | some entries =>
          obtain ⟨vs, hvs, rfl⟩ := hv.map hentries
          obtain ⟨ws, hws, rfl⟩ := hw.map hentries
          refine ⟨_, _, rfl, rfl, forall₃_of_forall₂ (Entries.aligned_ofList hvs)
            (Entries.aligned_ofList hws) fun _ _ _ _ hv hw => ?_⟩
          exact ⟨hv.1, hw.1, hobject hv.2 hw.2⟩

end Synthesis

open Synthesis

/-- **Noninterference.** Two walks over a schema from one target in one mode agree on the target,
and so do two syntheses: whatever the replacements and the generators, they differ in unset computed
leaves alone. -/
theorem agree_of_same_target (schema : Block) (hschema : schema.isWellFormed = true)
    (hunambiguous : schema.isUnambiguous = true) (mode : Mode) (target : Value) :
    (∀ (range₁ range₂ : SourceRange) (r₁ r₂ : Option Value) (path₁ path₂ : Path)
      (p₁ p₂ : Progress),
      Objects (AgreeFields mode schema.parts target)
        ((⟨mode, range₁⟩ : Context).block schema target r₁ path₁ p₁).1
        ((⟨mode, range₂⟩ : Context).block schema target r₂ path₂ p₂).1) ∧
    ∀ (r₁ r₂ : Replacement) (g₁ g₂ : Generator),
      Objects (AgreeFields mode schema.parts target) (synthesize mode schema target r₁ g₁).value
        (synthesize mode schema target r₂ g₂).value := by
  obtain ⟨hdistinct, hparts⟩ := Block.unambiguous_parts schema hschema hunambiguous
  rw [Part.allUnambiguous_iff] at hparts
  have hblock : ∀ (range₁ range₂ : SourceRange) (r₁ r₂ : Option Value) (path₁ path₂ : Path)
      (p₁ p₂ : Progress),
      Objects (AgreeFields mode schema.parts target)
        ((⟨mode, range₁⟩ : Context).block schema target r₁ path₁ p₁).1
        ((⟨mode, range₂⟩ : Context).block schema target r₂ path₂ p₂).1 := by
    intro range₁ range₂ r₁ r₂ path₁ path₂ p₁ p₂
    -- whatever leaves are filled with, and whatever the replacement
    have hcompletes : ∀ (range : SourceRange) (r : Option Value) (path : Path) (p : Progress),
        CompletesObject mode (fun _ _ => True) schema.parts target
          ((⟨mode, range⟩ : Context).block schema target r path p).1 := fun range r path p =>
      completes_block ⟨mode, range⟩ (Q := fun _ => True) (fun _ _ _ _ _ => trivial)
        (fun _ _ _ _ _ _ _ => trivial) schema target (fun _ _ => trivial) path p
    exact (hcompletes range₁ r₁ path₁ p₁).agree_of_parts hdistinct
      (fun p hp _ _ _ hv hw => hv.agree (hparts p hp) hw) (hcompletes range₂ r₂ path₂ p₂)
  refine ⟨hblock, fun r₁ r₂ g₁ g₂ => ?_⟩
  exact hblock r₁.range r₂.range r₁.usable.1 r₂.usable.1 Path.root Path.root ⟨g₁, []⟩ ⟨g₂, []⟩

/-! ### A network

A schema with every kind of collection, and a target that hardly fits it. -/

/-- The schema of what a network is connected by. -/
def gateway : Block :=
  .mk [("address", .plain .string false), ("serial", .plain .string true)] []

/-- The schema of a network. -/
def network : Block :=
  .mk [("name", .plain .string false), ("id", .plain .string true)]
    [("subnet", .many .list, gateway), ("rule", .many .set, gateway),
      ("route", .many .map, gateway)]

/-- A network without a name. Its subnets are no list, its rules are a list in which one is null and
one has a serial number, and its routes are an object. -/
def looseNetwork : Value :=
  .object [("subnet", .bool true),
    ("rule", .list .dynamic [.object [("address", .string "a")], .null .dynamic,
      .object [("address", .string "a"), ("serial", .string "s")]]),
    ("route", .object [("b", .null .string), ("a", .object [("address", .string "a")])])]

/-- Serial numbers for the rules, and subnets that cannot be. -/
def someSerials : Replacement :=
  ⟨some (.object [("rule", .object [("serial", .string "s")]), ("subnet", .bool false)]),
    SourceRange.unspecified⟩

/-- With serial numbers two rules of the planned network collapse, and still the plans agree. -/
theorem agree_of_same_target_looseNetwork :
    network.isWellFormed = true ∧ network.isUnambiguous = true ∧
      Objects (AgreeFields .plan network.parts looseNetwork)
        (planResource network looseNetwork Replacement.absent (Generator.seeded 0)).value
        (planResource network looseNetwork someSerials (Generator.seeded 1)).value :=
  ⟨by decide, by decide, (agree_of_same_target network (by decide) (by decide) .plan
    looseNetwork).2 Replacement.absent someSerials (Generator.seeded 0) (Generator.seeded 1)⟩

end ProviderMock
