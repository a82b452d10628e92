import ProviderMock.Proofs.Generation
import ProviderMock.Proofs.Noninterference

/-!
# A plan and what is applied of it

A resource is planned and then applied, with two replacements and at two places of the random
stream. `Planned` says what a plan of known values looks like: it has the shape of the schema, and
what is unknown in it is unknown as a whole and stands at a computed leaf. `Refines` says what
becomes of a plan when it is applied: unknown computed leaves get known values, and nothing else
changes.

* **plan** — `Completes.planned`: a known target is planned to a plan of this form.
* **apply** — `Planned.refines`: from such a plan, applying refines it.
* **known** — `Planned.isWhollyKnown_of_refines`: what refines such a plan is known.
-/

namespace ProviderMock

namespace Synthesis

open Fields (Aligned)

mutual

/-- The applied value `a` of a field refines the planned value `p`: it is the same but for unknown
computed leaves, which are known now. Of the elements of a set equal ones may have collapsed. -/
def Refines : Part → Value → Value → Prop
  | .leaf _ computed, p, a =>
    if computed && p.isUnknown then a.isWhollyKnown = true else a = p
  | .nested .single parts, p, a => Objects (RefinesFields parts) p a
  | .nested (.many .list) parts, p, a =>
    (∃ t ps as, p = .list t ps ∧ a = .list t as ∧
      List.Forall₂ (Objects (RefinesFields parts)) ps as) ∨
    (p.elements? = none ∧ a = p)
  | .nested (.many .set) parts, p, a =>
    (∃ t ps as, p = .set t ps ∧ a = .set t as ∧
      Represents (Objects (RefinesFields parts)) ps as) ∨
    (p.elements? = none ∧ a = p)
  | .nested (.many .map) parts, p, a =>
    (∃ t ps as, p = .map t ps ∧ a = .map t as ∧
      Aligned (fun _ => Objects (RefinesFields parts)) ps as) ∨
    (p.named? = none ∧ a = p)
termination_by structural p => p

/-- Applied fields refine planned ones: both are those of the schema, in declaration order. -/
def RefinesFields :
    List (String × Part) → List (String × Value) → List (String × Value) → Prop
  | [], planned, applied => planned = [] ∧ applied = []
  | (name, part) :: rest, planned, applied =>
    ∃ p ps a as, planned = (name, p) :: ps ∧ applied = (name, a) :: as ∧
      Refines part p a ∧ RefinesFields rest ps as
termination_by structural ps => ps

end

mutual

/-- A plan of known values: it has the shape of the schema, or is a known value that the schema does
not fit, and it is unknown at computed leaves alone. -/
def Planned : Part → Value → Prop
  | .leaf _ computed, p => p.isWhollyKnown = true ∨ (computed && p.isUnknown) = true
  | .nested .single parts, p => ∃ fields, p = .object fields ∧ PlannedFields parts fields
  | .nested (.many .list) parts, p =>
    (∃ ps, p = .list (Part.objectType parts) ps ∧
      ∀ x ∈ ps, ∃ fields, x = .object fields ∧ PlannedFields parts fields) ∨
    (p.elements? = none ∧ p.isNull = false ∧ p.isWhollyKnown = true)
  | .nested (.many .set) parts, p =>
    (∃ ps, p = .set (Part.objectType parts) ps ∧
      ∀ x ∈ ps, ∃ fields, x = .object fields ∧ PlannedFields parts fields) ∨
    (p.elements? = none ∧ p.isNull = false ∧ p.isWhollyKnown = true)
  | .nested (.many .map) parts, p =>
    (∃ ps, p = .map (Part.objectType parts) ps ∧ Entries.Ascending ps ∧
      ∀ x ∈ ps, ∃ fields, x.2 = .object fields ∧ PlannedFields parts fields) ∨
    (p.named? = none ∧ p.isNull = false ∧ p.isWhollyKnown = true)
termination_by structural p => p

/-- The fields of a planned object. -/
def PlannedFields : List (String × Part) → List (String × Value) → Prop
  | [], planned => planned = []
  | (name, part) :: rest, planned =>
    ∃ p ps, planned = (name, p) :: ps ∧ Planned part p ∧ PlannedFields rest ps
termination_by structural ps => ps

end

/-- The object `p` is planned along the parts of an object. -/
def PlannedObject (parts : List (String × Part)) (p : Value) : Prop :=
  ∃ fields, p = .object fields ∧ PlannedFields parts fields

theorem plannedFields_iff {parts : List (String × Part)} {fields : List (String × Value)} :
    PlannedFields parts fields ↔ Aligned (fun _ part p => Planned part p) parts fields := by
  induction parts generalizing fields with
  | nil => cases fields <;> simp [PlannedFields, Aligned]
  | cons p rest ih =>
    obtain ⟨name, part⟩ := p
    rw [PlannedFields]
    constructor
    · rintro ⟨v, vs, rfl, hv, hvs⟩
      exact .cons ⟨rfl, hv⟩ (ih.mp hvs)
    · rintro (_ | ⟨⟨rfl, hv⟩, hvs⟩)
      exact ⟨_, _, rfl, hv, ih.mpr hvs⟩

/-! ## Plan -/

/-- A plan fills leaves with known values, or leaves them unknown. -/
def Decided (_ : Ty) (v : Value) : Prop := v.isWhollyKnown = true ∨ v.isUnknown = true

/-- A completed object is a plan if each of its fields is. -/
theorem CompletesObject.planned_of_parts {parts : List (String × Part)}
    (hdistinct : Fields.Distinct parts)
    (ih : ∀ p ∈ parts, ∀ target v, Completes .plan Decided p.2 target v →
      target.isWhollyKnown = true → Planned p.2 v)
    {target v : Value} (h : CompletesObject .plan Decided parts target v)
    (htarget : target.isWhollyKnown = true) : PlannedObject parts v := by
  obtain ⟨fields, rfl, -, hfields⟩ := h.exists_fields hdistinct
  refine ⟨fields, rfl, plannedFields_iff.mpr ?_⟩
  exact (completesFields_iff.mp hfields).imp fun name part v hpart hv =>
    ih _ hpart _ _ hv (Value.isWhollyKnown_fieldOr htarget name part.type)

/-- A plan makes an empty collection of a null. What it keeps of a known target is not null. -/
theorem keeps_of_known {target v empty : Value} (htarget : target.isWhollyKnown = true)
    (h : v = if Mode.plan.empties target then empty else target) :
    (target.isNull = true ∧ v = empty) ∨
      (v = target ∧ v.isNull = false ∧ v.isWhollyKnown = true) := by
  cases hnull : target.isNull with
  | true =>
    left
    simpa [Mode.empties, hnull] using h
  | false =>
    right
    obtain rfl : v = target := by simpa [Mode.empties, hnull] using h
    exact ⟨rfl, hnull, htarget⟩

/-- **A known target is planned to a plan of known values.** -/
theorem Completes.planned {part : Part} (hpart : part.Unambiguous) {target v : Value}
    (h : Completes .plan Decided part target v) (htarget : target.isWhollyKnown = true) :
    Planned part v := by
  induction part using Part.induction generalizing target v with
  | leaf t computed =>
    rw [Completes] at h
    split at h
    · rename_i hunset
      rw [Bool.and_eq_true] at hunset
      exact h.imp_right fun hunknown => by rw [hunset.1, hunknown]; rfl
    · rw [h]
      exact .inl htarget
  | nested nesting parts ih =>
    obtain ⟨hdistinct, hparts⟩ := hpart
    rw [Part.allUnambiguous_iff] at hparts
    have hobject : ∀ {target v}, CompletesObject .plan Decided parts target v →
        target.isWhollyKnown = true → PlannedObject parts v := fun h htarget =>
      h.planned_of_parts hdistinct (fun p hp _ _ h ht => ih p hp (hparts p hp) h ht) htarget
    cases nesting with
    | single => exact hobject h htarget
    | many collection =>
      cases collection with
      | list =>
        cases helements : target.elements? with
        | none =>
          rcases keeps_of_known htarget (h.absent_list helements) with ⟨-, rfl⟩ | ⟨rfl, hkept⟩
          · exact .inl ⟨[], rfl, fun _ hx => absurd hx List.not_mem_nil⟩
          · exact .inr ⟨helements, hkept⟩
        | some elements =>
          obtain ⟨vs, hvs, rfl⟩ := h.list helements
          refine .inl ⟨vs, rfl, fun x hx => ?_⟩
          obtain ⟨e, he, hex⟩ := exists_mem_left hvs hx
          exact hobject hex (Value.isWhollyKnown_of_mem_elements htarget helements e he)
      | set =>
        cases helements : target.elements? with
        | none =>
          rcases keeps_of_known htarget (h.absent_set helements) with ⟨-, rfl⟩ | ⟨rfl, hkept⟩
          · exact .inl ⟨[], rfl, fun _ hx => absurd hx List.not_mem_nil⟩
          · exact .inr ⟨helements, hkept⟩
        | some elements =>
          obtain ⟨vs, hvs, rfl⟩ := h.set helements
          refine .inl ⟨_, rfl, fun x hx => ?_⟩
          obtain ⟨e, he, hex⟩ := exists_mem_left hvs ((Value.sublist_distinct vs).subset hx)
          exact hobject hex (Value.isWhollyKnown_of_mem_elements htarget helements e he)
      | map =>
        cases hentries : target.named? with
        | none =>
          rcases keeps_of_known htarget (h.absent_map hentries) with ⟨-, rfl⟩ | ⟨rfl, hkept⟩
          · exact .inl ⟨[], rfl, .nil, fun _ hx => absurd hx List.not_mem_nil⟩
          · exact .inr ⟨hentries, hkept⟩
        | some entries =>
          obtain ⟨vs, hvs, rfl⟩ := h.map hentries
          refine .inl ⟨_, rfl, Entries.ascending_ofList vs, fun x hx => ?_⟩
          obtain ⟨e, he, hex⟩ := hvs.exists_left (Entries.mem_of_mem_ofList hx)
          exact hobject hex (Value.isWhollyKnown_of_mem_named htarget hentries _ he)

/-! ## Apply -/

/-- Applying fills leaves with known values. -/
def Settled (_ : Ty) (v : Value) : Prop := v.isWhollyKnown = true

/-- Completed fields refine planned ones if those of each name do. The target has the planned fields
under their names. -/
theorem refinesFields_of_completes {parts : List (String × Part)}
    (ih : ∀ q ∈ parts, ∀ p a, Planned q.2 p → Completes .apply Settled q.2 p a → Refines q.2 p a)
    {target : Value} {planned applied : List (String × Value)}
    (hplanned : PlannedFields parts planned)
    (htarget : ∀ f ∈ planned, ∀ t, target.fieldOr f.1 t = f.2)
    (happlied : CompletesFields .apply Settled parts target applied) :
    RefinesFields parts planned applied := by
  induction parts generalizing planned applied with
  | nil => exact ⟨hplanned, happlied⟩
  | cons q rest ihrest =>
    obtain ⟨name, part⟩ := q
    obtain ⟨p, ps, rfl, hp, hps⟩ := hplanned
    obtain ⟨a, as, rfl, ha, has⟩ := happlied
    rw [htarget (name, p) List.mem_cons_self part.type] at ha
    exact ⟨p, ps, a, as, rfl, rfl, ih _ List.mem_cons_self p a hp ha,
      ihrest (fun q hq => ih q (List.mem_cons_of_mem _ hq)) hps
        (fun f hf => htarget f (List.mem_cons_of_mem _ hf)) has⟩

/-- A completed object refines a planned one if each of its fields does. -/
theorem CompletesObject.refines_of_parts {parts : List (String × Part)}
    (hdistinct : Fields.Distinct parts)
    (ih : ∀ q ∈ parts, ∀ p a, Planned q.2 p → Completes .apply Settled q.2 p a → Refines q.2 p a)
    {p a : Value} (hp : PlannedObject parts p) (ha : CompletesObject .apply Settled parts p a) :
    Objects (RefinesFields parts) p a := by
  obtain ⟨planned, rfl, hplanned⟩ := hp
  obtain ⟨applied, rfl, -, happlied⟩ := ha.exists_fields hdistinct
  have hfresh : Fields.Distinct planned := (plannedFields_iff.mp hplanned).distinct hdistinct
  exact ⟨planned, applied, rfl, rfl, refinesFields_of_completes ih hplanned
    (fun _ hf => Value.fieldOr_of_mem hfresh hf) happlied⟩

/-- What is neither null nor unknown is applied as it was planned. -/
theorem empties_of_known {p : Value} (hnull : p.isNull = false) (hknown : p.isWhollyKnown = true) :
    Mode.apply.empties p = false := by
  rw [Mode.empties, hnull, Value.isUnknown_of_isWhollyKnown hknown]
  rfl

/-- **Applying a plan refines it.** -/
theorem Planned.refines {part : Part} (hpart : part.Unambiguous) {p a : Value}
    (hp : Planned part p) (ha : Completes .apply Settled part p a) : Refines part p a := by
  induction part using Part.induction generalizing p a with
  | leaf t computed => exact ha
  | nested nesting parts ih =>
    obtain ⟨hdistinct, hparts⟩ := hpart
    rw [Part.allUnambiguous_iff] at hparts
    have hobject : ∀ {p a}, PlannedObject parts p → CompletesObject .apply Settled parts p a →
        Objects (RefinesFields parts) p a := fun hp ha =>
      ha.refines_of_parts hdistinct (fun q hq _ _ hp ha => ih q hq (hparts q hq) hp ha) hp
    cases nesting with
    | single => exact hobject hp ha
    | many collection =>
      cases collection with
      | list =>
        rcases hp with ⟨ps, rfl, hps⟩ | ⟨helements, hnull, hknown⟩
        · obtain ⟨as, has, rfl⟩ := ha.list rfl
          have hboth := (List.forall₂_and_left ps as).mpr ⟨hps, has⟩
          exact .inl ⟨_, ps, as, rfl, rfl, hboth.imp fun _ _ h => hobject h.1 h.2⟩
        · refine .inr ⟨helements, ?_⟩
          rw [ha.absent_list helements, empties_of_known hnull hknown]
          rfl
      | set =>
        rcases hp with ⟨ps, rfl, hps⟩ | ⟨helements, hnull, hknown⟩
        · obtain ⟨as, has, rfl⟩ := ha.set rfl
          have hboth := (List.forall₂_and_left ps as).mpr ⟨hps, has⟩
          exact .inl ⟨_, ps, _, rfl, rfl,
            represents_distinct (hboth.imp fun _ _ h => hobject h.1 h.2)⟩
        · refine .inr ⟨helements, ?_⟩
          rw [ha.absent_set helements, empties_of_known hnull hknown]
          rfl
      | map =>
        rcases hp with ⟨ps, rfl, hascending, hps⟩ | ⟨hentries, hnull, hknown⟩
        · obtain ⟨as, has, rfl⟩ := ha.map rfl
          -- the keys ascend already, so the map has them in the order they were applied in
          have hkeys : Entries.Ascending as := Entries.ascending_of_aligned has hascending
          refine .inl ⟨_, ps, as, rfl, by rw [Value.mapOf, Entries.ofList_eq_self hkeys], ?_⟩
          exact has.imp fun name x a hx hxa => hobject (hps _ hx) hxa
        · refine .inr ⟨hentries, ?_⟩
          rw [ha.absent_map hentries, empties_of_known hnull hknown]
          rfl

/-! ## What has been applied -/

/-- Fields that refine planned ones are known if each of them is. -/
theorem isWhollyKnown_of_refinesFields {parts : List (String × Part)}
    (ih : ∀ q ∈ parts, ∀ p a, Planned q.2 p → Refines q.2 p a → a.isWhollyKnown = true)
    {planned applied : List (String × Value)} (hplanned : PlannedFields parts planned)
    (hrefines : RefinesFields parts planned applied) :
    ∀ f ∈ applied, f.2.isWhollyKnown = true := by
  induction parts generalizing planned applied with
  | nil =>
    obtain ⟨-, rfl⟩ := hrefines
    exact fun f hf => absurd hf List.not_mem_nil
  | cons q rest ihrest =>
    obtain ⟨name, part⟩ := q
    obtain ⟨p, ps, a, as, rfl, rfl, hpa, hpas⟩ := hrefines
    obtain ⟨_, _, ⟨⟩, hp, hps⟩ := hplanned
    exact List.forall_mem_cons.mpr ⟨ih _ List.mem_cons_self p a hp hpa,
      ihrest (fun q hq => ih q (List.mem_cons_of_mem _ hq)) hps hpas⟩

/-- An object that refines a planned one is known if its fields are. -/
theorem isWhollyKnown_of_objects {parts : List (String × Part)}
    (ih : ∀ q ∈ parts, ∀ p a, Planned q.2 p → Refines q.2 p a → a.isWhollyKnown = true)
    {p a : Value} (hp : PlannedObject parts p) (hpa : Objects (RefinesFields parts) p a) :
    a.isWhollyKnown = true := by
  obtain ⟨planned, applied, rfl, rfl, hrefines⟩ := hpa
  obtain ⟨_, ⟨⟩, hplanned⟩ := hp
  exact Value.isWhollyKnown_object_iff.mpr (isWhollyKnown_of_refinesFields ih hplanned hrefines)

/-- **What refines a plan of known values is known.** -/
theorem Planned.isWhollyKnown_of_refines {part : Part} {p a : Value} (hp : Planned part p)
    (hpa : Refines part p a) : a.isWhollyKnown = true := by
  induction part using Part.induction generalizing p a with
  | leaf t computed =>
    rw [Refines] at hpa
    split at hpa
    · exact hpa
    · rename_i hset
      rw [hpa]
      exact hp.resolve_right hset
  | nested nesting parts ih =>
    have hobject : ∀ {p a}, PlannedObject parts p → Objects (RefinesFields parts) p a →
        a.isWhollyKnown = true :=
      isWhollyKnown_of_objects fun q hq _ _ hp hpa => ih q hq hp hpa
    cases nesting with
    | single => exact hobject hp hpa
    | many collection =>
      cases collection with
      | list =>
        rcases hpa with ⟨t, ps, as, rfl, rfl, hpas⟩ | ⟨helements, rfl⟩
        · rcases hp with ⟨_, ⟨⟩, hps⟩ | ⟨⟨⟩, -⟩
          refine Value.isWhollyKnown_list_iff.mpr fun a ha => ?_
          obtain ⟨p, hp, hpa⟩ := exists_mem_left hpas ha
          exact hobject (hps p hp) hpa
        · rcases hp with ⟨_, rfl, -⟩ | ⟨-, -, hknown⟩
          · cases helements
          · exact hknown
      | set =>
        rcases hpa with ⟨t, ps, as, rfl, rfl, hpas⟩ | ⟨helements, rfl⟩
        · rcases hp with ⟨_, ⟨⟩, hps⟩ | ⟨⟨⟩, -⟩
          refine Value.isWhollyKnown_set_iff.mpr fun a ha => ?_
          obtain ⟨p, hp, hpa⟩ := hpas.1 a ha
          exact hobject (hps p hp) hpa
        · rcases hp with ⟨_, rfl, -⟩ | ⟨-, -, hknown⟩
          · cases helements
          · exact hknown
      | map =>
        rcases hpa with ⟨t, ps, as, rfl, rfl, hpas⟩ | ⟨hentries, rfl⟩
        · rcases hp with ⟨_, ⟨⟩, -, hps⟩ | ⟨⟨⟩, -⟩
          refine Value.isWhollyKnown_map_iff.mpr fun a ha => ?_
          obtain ⟨p, hp, hpa⟩ := hpas.exists_left ha
          exact hobject (hps _ hp) hpa
        · rcases hp with ⟨_, rfl, -⟩ | ⟨-, -, hknown⟩
          · cases hentries
          · exact hknown

/-! ## The replacements of both runs -/

/-- A leaf that is filled from a known replacement is known, but for what a plan leaves unknown. -/
theorem Context.leaf_known (context : Context) {t : Ty} {target : Value}
    (h : context.mode.isUnset target = true) {r : Option Value}
    (hr : ∀ x ∈ r, x.isWhollyKnown = true) (path : Path) (p : Progress) :
    (context.leaf t target r path p).1.isWhollyKnown = true ∨
      (context.mode = .plan ∧ (context.leaf t target r path p).1.isUnknown = true) := by
  rcases context.leaf_cases h r path p with ⟨x, hx, -, hconvert⟩ | ⟨hmode, hunknown⟩ | ⟨-, g, hg⟩
  · exact .inl (Value.isWhollyKnown_of_convert hconvert (hr x hx))
  · exact .inr ⟨hmode, by rw [hunknown]; rfl⟩
  · rw [hg]
    exact .inl (Generator.isWhollyKnown_generate t g)

end Synthesis

open Synthesis

/-- **Planning and then applying.** A known target is planned and the plan is applied, with known
replacements and with whatever generators. The result is known, and it refines the plan. -/
theorem applied_refines_planned (schema : Block) (hschema : schema.isWellFormed = true)
    (hunambiguous : schema.isUnambiguous = true) (target : Value)
    (htarget : target.isWhollyKnown = true) (r₁ r₂ : Replacement)
    (hr₁ : ∀ x ∈ r₁.value, x.isWhollyKnown = true) (hr₂ : ∀ x ∈ r₂.value, x.isWhollyKnown = true)
    (g₁ g₂ : Generator) :
    let planned := (planResource schema target r₁ g₁).value
    let applied := (applyResource schema planned r₂ g₂).value
    applied.isWhollyKnown = true ∧ Objects (RefinesFields schema.parts) planned applied := by
  intro planned applied
  obtain ⟨hdistinct, hparts⟩ := Block.unambiguous_parts schema hschema hunambiguous
  rw [Part.allUnambiguous_iff] at hparts
  have hplan : CompletesObject .plan Decided schema.parts target planned :=
    completes_synthesize (Q := fun x => x.isWhollyKnown = true)
      (fun _ _ _ hx hy => Value.isWhollyKnown_of_field hx hy)
      (fun _ _ _ path p hunset hx =>
        (Context.leaf_known ⟨.plan, r₁.range⟩ hunset hx path p).imp_right And.right)
      schema target hr₁ g₁
  have happly : CompletesObject .apply Settled schema.parts planned applied :=
    completes_synthesize (Q := fun x => x.isWhollyKnown = true)
      (fun _ _ _ hx hy => Value.isWhollyKnown_of_field hx hy)
      (fun _ _ _ path p hunset hx =>
        (Context.leaf_known ⟨.apply, r₂.range⟩ hunset hx path p).resolve_right nofun)
      schema planned hr₂ g₂
  have hplanned : PlannedObject schema.parts planned :=
    hplan.planned_of_parts hdistinct (fun p hp _ _ h ht => h.planned (hparts p hp) ht) htarget
  have hrefines : Objects (RefinesFields schema.parts) planned applied :=
    happly.refines_of_parts hdistinct (fun p hp _ _ h ha => h.refines (hparts p hp) ha) hplanned
  exact ⟨isWhollyKnown_of_objects (fun _ _ _ _ hp hpa => hp.isWhollyKnown_of_refines hpa) hplanned
    hrefines, hrefines⟩

/-- A network with rules that collapse is planned with serial numbers and applied without. -/
theorem applied_refines_planned_looseNetwork :
    network.isWellFormed = true ∧ network.isUnambiguous = true ∧
      looseNetwork.isWhollyKnown = true ∧ (∀ x ∈ someSerials.value, x.isWhollyKnown = true) ∧
      (∀ x ∈ Replacement.absent.value, x.isWhollyKnown = true) ∧
      let planned := (planResource network looseNetwork someSerials (Generator.seeded 0)).value
      let applied := (applyResource network planned Replacement.absent (Generator.seeded 1)).value
      applied.isWhollyKnown = true ∧ Objects (RefinesFields network.parts) planned applied := by
  have hsome : ∀ x ∈ someSerials.value, x.isWhollyKnown = true := by
    intro x hx
    obtain rfl := Option.some.inj hx
    rfl
  have habsent : ∀ x ∈ Replacement.absent.value, x.isWhollyKnown = true := nofun
  exact ⟨by decide, by decide, rfl, hsome, habsent, applied_refines_planned network (by decide)
    (by decide) looseNetwork rfl someSerials Replacement.absent hsome habsent _ _⟩

end ProviderMock
