import ProviderMock.Proofs.Noninterference
import ProviderMock.Proofs.Reports

/-!
# One replacement for every element

A replacement has no indexes and no keys: what it holds at the position of a computed leaf serves
every instance of the leaf, in every element of every collection on the way to it.

* **instances** — `EachInstance` relates a target and a result at each instance of one position. Of
  a set it speaks of the elements before equal ones collapse.
* **a whole walk** — `Context.eachInstance_field`: what the walk over a leaf does with the part of
  the replacement at its position holds at each instance of it.
* **effects** — `Context.after_of_converts` and `Context.report?_of_converts`: nothing is drawn and
  nothing reported where the replacement converts.
-/

namespace ProviderMock

/-! ## Instances -/

/-- The objects that a field holds in the target and in the result are related, one by one. What is
no collection holds none. -/
def Nesting.Relates (nesting : Nesting) (parts : List (String × Part)) (R : Value → Value → Prop)
    (target v : Value) : Prop :=
  match nesting with
  | .single => R target v
  | .many collection =>
    match collection.children? target with
    | none => True
    | some children =>
      ∃ results : List (PathStep × Value),
        List.Forall₂ (fun child result => child.1 = result.1 ∧ R child.2 result.2)
          children results ∧
        v = collection.build (Part.objectType parts) results

/-- The target and the result of a field are related by `P` at every instance of a position. -/
def EachInstance (P : Value → Value → Prop) : List String → Part → Value → Value → Prop
  | [], _, target, v => P target v
  | _ :: _, .leaf _ _, _, _ => False
  | name :: names, .nested nesting parts, target, v =>
    ∃ part, parts.lookup name = some part ∧
      nesting.Relates parts (fun target v => ∃ w, v.field? name = some w ∧
        EachInstance P names part (target.fieldOr name part.type) w) target v
termination_by structural names => names

/-- An object without repeated names has each of its fields under its name. -/
theorem Value.field?_ofFields {fields : List (String × Value)} (h : Fields.Distinct fields)
    {name : String} {v : Value} (hv : fields.lookup name = some v) :
    (Value.ofFields fields).field? name = some v := by
  rw [ofFields, Fields.ofList_eq_self h]
  exact hv

namespace Synthesis

namespace Context

variable (context : Context)

/-- A walk over an object walks over each field at some time. -/
theorem exists_lookup_fields {parts : List (String × Part)} {name : String} {part : Part}
    (hpart : parts.lookup name = some part) (target : Value) (r : Option Value) (path : Path)
    (p : Progress) :
    ∃ q : Progress, (context.fields parts target r path p).1.lookup name =
      some (context.field part (target.fieldOr name part.type) (r.bind (·.field? name))
        (path.step (.attr name)) q).1 := by
  induction parts generalizing p with
  | nil => cases hpart
  | cons first rest ih =>
    obtain ⟨n, q⟩ := first
    rw [Fields.lookup_cons] at hpart
    rw [fields]
    by_cases hn : name = n
    · rw [if_pos hn] at hpart
      obtain rfl := Option.some.inj hpart
      subst hn
      exact ⟨p, by simp⟩
    · rw [if_neg hn] at hpart
      obtain ⟨q', hq'⟩ := ih hpart (context.field q (target.fieldOr n q.type)
        (r.bind (·.field? n)) (path.step (.attr n)) p).2
      exact ⟨q', by simpa [Fields.lookup_cons, hn] using hq'⟩

/-- **Every instance of a leaf is filled from the part of the replacement at its position.** What
holds of all walks over the leaf with this part holds at each instance. -/
theorem eachInstance_field {P : Value → Value → Prop} {t : Ty} {names : List String} {part : Part}
    (hpart : part.Unambiguous) (hleaf : part.part? names = some (.leaf t true)) {r : Option Value}
    (h : ∀ target path p, P target
      (context.leaf t target (r.bind (·.follow? names)) path p).1)
    (target : Value) (path : Path) (p : Progress) :
    EachInstance P names part target (context.field part target r path p).1 := by
  induction names generalizing part r target path p with
  | nil =>
    obtain rfl := Option.some.inj hleaf
    have hr : r.bind (·.follow? []) = r := by cases r <;> rfl
    rw [hr] at h
    exact h target path p
  | cons name names ih =>
    cases part with
    | leaf u computed => cases hleaf
    | nested nesting parts =>
      obtain ⟨hdistinct, hparts⟩ := hpart
      rw [Part.allUnambiguous_iff] at hparts
      obtain ⟨q, hq, hleaf⟩ := Option.bind_eq_some_iff.mp hleaf
      refine ⟨q, hq, ?_⟩
      -- each object has the field, filled from the same part of the replacement
      have hobject : ∀ given : Option Value,
          (∀ name, given.bind (·.field? name) = r.bind (·.field? name)) →
          ∀ child path p, ∃ w, (context.object parts child given path p).1.field? name = some w ∧
            EachInstance P names q (child.fieldOr name q.type) w := by
        intro given hgiven child path p
        obtain ⟨p', hp'⟩ := context.exists_lookup_fields hq child given path p
        have hfresh : Fields.Distinct (context.fields parts child given path p).1 := by
          rw [Fields.Distinct, names_fields]
          exact hdistinct
        refine ⟨_, Value.field?_ofFields hfresh hp', ?_⟩
        rw [hgiven]
        refine ih (hparts _ (Fields.mem_of_lookup hq)) hleaf ?_ _ _ _
        simpa [Value.follow?, Option.bind_assoc] using h
      have hgiven := context.bind_field?_nestedReplacement r path p
      cases nesting with
      | single => exact hobject _ hgiven target path _
      | many collection =>
        rw [Nesting.Relates]
        cases hchildren : collection.children? target with
        | none => trivial
        | some children =>
          rw [context.field_of_children parts r path hchildren]
          exact ⟨_, forall₂_each (R := fun child v => ∃ w, Value.field? v name = some w ∧
            EachInstance P names q (Value.fieldOr child name q.type) w) (hobject _ hgiven) path
            children _, rfl⟩

/-- A walk over an object asks a replacement for fields and for nothing else. -/
theorem fields_congr_replacement {r held : Option Value}
    (h : ∀ name, r.bind (·.field? name) = held.bind (·.field? name)) (parts : List (String × Part))
    (target : Value) (path : Path) :
    context.fields parts target r path = context.fields parts target held path := by
  induction parts with
  | nil => rfl
  | cons part rest ih =>
    obtain ⟨name, part⟩ := part
    rw [fields, fields, h name, ih]

/-- A walk along a block is a walk over a field, with what is of use for nested objects. -/
theorem block_eq_field_root (schema : Block) (target : Value) (r : Option Value) (path : Path) :
    context.block schema target r path = context.field schema.root target
      (r.filter fun x => !x.isNull && x.isObject) path := by
  have hgiven : context.nestedReplacement (r.filter fun x => !x.isNull && x.isObject) path =
      pure (r.filter fun x => !x.isNull && x.isObject) := by
    cases r with
    | none => rfl
    | some x =>
      cases hnull : x.isNull <;> cases hobject : x.isObject <;>
        simp [nestedReplacement, Option.filter, hnull, hobject]
  rw [Block.root, field_single, hgiven, pure_bind, block, object, object,
    context.fields_congr_replacement fun name => (Value.bind_field?_filter r name).symm]

/-- **Every instance of a leaf of a block is filled from the part of the replacement at its
position.** -/
theorem eachInstance_block {P : Value → Value → Prop} {schema : Block} {t : Ty}
    {names : List String} (hschema : schema.root.Unambiguous)
    (hleaf : schema.part? names = some (.leaf t true)) {r : Option Value}
    (h : ∀ target path p, P target
      (context.leaf t target (r.bind (·.follow? names)) path p).1)
    (target : Value) (path : Path) (p : Progress) :
    EachInstance P names schema.root target (context.block schema target r path p).1 := by
  rw [block_eq_field_root]
  refine context.eachInstance_field hschema hleaf (fun target path p => ?_) target path p
  rw [Value.bind_follow?_congr (Value.bind_field?_filter r) (Block.ne_nil_of_leaf hleaf)]
  exact h target path p

/-- A leaf without a replacement becomes unknown or a generated value if it is unset. -/
theorem leaf_of_forall_isNull {t : Ty} {r : Option Value} (hr : ∀ x ∈ r, x.isNull = true)
    (target : Value) (path : Path) (p : Progress) :
    if context.mode.isUnset target then
      if context.mode = .plan then (context.leaf t target r path p).1 = .unknown t
      else ∃ g : Generator, (context.leaf t target r path p).1 = (g.generate t).1
    else (context.leaf t target r path p).1 = target := by
  cases hunset : context.mode.isUnset target with
  | false =>
    rw [if_neg Bool.false_ne_true, leaf_of_set hunset]
    rfl
  | true =>
    have hnone : r.filter (fun x => !x.isNull) = none :=
      Option.filter_eq_none_iff.mpr fun x hx => by simp [hr x hx]
    rw [if_pos rfl, leaf_of_none hunset hnone]
    rcases context.fallback_cases t p with ⟨hmode, hv⟩ | ⟨hmode, g, hv⟩
    · rw [if_pos hmode]
      exact hv
    · rw [if_neg hmode]
      exact ⟨g, hv⟩

variable {context}

/-- Nothing is drawn and nothing reported at a visit to a leaf whose replacement converts. -/
theorem after_of_converts {r : Option Value} {visit : Visit} {t : Ty} {x w : Value}
    (hpart : visit.part = .leaf t true) (hx : visit.path.partOf r = some x)
    (hnull : x.isNull = false) (hw : x.convert t = .ok w) (p : Progress) :
    context.after r p visit = p := by
  obtain ⟨path, part, target⟩ := visit
  obtain rfl : part = .leaf t true := hpart
  show (context.leaf t target (path.partOf r) path p).2 = p
  rw [leaf_of_converts hx hnull hw]
  rfl

/-- There is nothing to report at a visit to a leaf whose replacement converts. -/
theorem report?_of_converts {r : Option Value} {visit : Visit} {t : Ty} {x w : Value}
    (hpart : visit.part = .leaf t true) (hx : visit.path.partOf r = some x)
    (hw : x.convert t = .ok w) : context.report? r visit = none := by
  refine Option.eq_none_iff_forall_ne_some.mpr fun d hd => ?_
  rcases report?_cases hd with ⟨_, _, _, hnested, -, -, -⟩ | ⟨u, y, e, hleaf, -, hy, he, -⟩
  · rw [hpart] at hnested
    cases hnested
  · obtain ⟨rfl, -⟩ := Part.leaf.inj (hpart.symm.trans hleaf)
    obtain rfl : x = y := Option.some.inj (hx.symm.trans (Option.filter_eq_some_iff.mp hy).1)
    rw [hw] at he
    cases he

end Context

end Synthesis

open Synthesis

section Schema

variable {schema : Block} {mode : Mode} {target : Value} {fields : List (String × Value)}
  {range : SourceRange} {g : Generator} {position : List String} {t : Ty}

/-- Every visit to the position of a computed leaf is to the leaf, with the part of the replacement
at the position. -/
theorem Block.leaf_of_mem_visits (hschema : schema.isWellFormed = true)
    (hunambiguous : schema.isUnambiguous = true)
    (hleaf : schema.part? position = some (.leaf t true)) {visit : Visit}
    (hvisit : visit ∈ schema.visits target) (hposition : visit.position = position) :
    visit.part = .leaf t true ∧
      visit.path.partOf (some (.object fields)) = (Value.object fields).follow? position := by
  subst hposition
  have hpart := Block.part?_of_mem_visits hschema hunambiguous hvisit
  exact ⟨Option.some.inj (hpart.symm.trans hleaf), rfl⟩

/-- What holds of all walks over a leaf with the part of the replacement at its position holds at
each instance of the leaf in the result of a synthesis. -/
theorem eachInstance_synthesize (hschema : schema.isWellFormed = true)
    (hunambiguous : schema.isUnambiguous = true)
    (hleaf : schema.part? position = some (.leaf t true)) {P : Value → Value → Prop}
    (h : ∀ v path p, P v ((⟨mode, range⟩ : Context).leaf t v
      ((Value.object fields).follow? position) path p).1) :
    EachInstance P position schema.root target
      (synthesize mode schema target ⟨some (.object fields), range⟩ g).value := by
  have hroot : schema.root.Unambiguous := Block.unambiguous_parts schema hschema hunambiguous
  exact Context.eachInstance_block ⟨mode, range⟩ hroot hleaf h target Path.root ⟨g, []⟩

end Schema

/-- **One part of a replacement serves every instance of a leaf.** If the part that an object holds
at the position of a computed leaf converts, then every unset instance of the leaf, in every element
on the way to it, becomes what the part converts to, nothing is reported of the position, and
nothing is drawn for it. If there is no such part or it is null, every unset instance becomes
unknown in a plan and a generated value of the declared type otherwise. Instances that are set stay
as they are. -/
theorem broadcast_synthesize (schema : Block) (hschema : schema.isWellFormed = true)
    (hunambiguous : schema.isUnambiguous = true) (mode : Mode) (target : Value)
    (fields : List (String × Value)) (range : SourceRange) (g : Generator)
    (position : List String) (t : Ty) (hleaf : schema.part? position = some (.leaf t true)) :
    let context : Context := ⟨mode, range⟩
    let r := Value.object fields
    let done := synthesize mode schema target ⟨some r, range⟩ g
    done.generator =
        ((schema.visits target).foldl (context.after (some r)) ⟨g, []⟩).generator ∧
      (∀ x w, r.follow? position = some x → x.isNull = false → x.convert t = .ok w →
        EachInstance (fun v result => result = if mode.isUnset v then w else v) position
            schema.root target done.value ∧
          (∀ d ∈ done.diagnostics, d.path.attributeNames ≠ position) ∧
          ∀ visit ∈ schema.visits target, visit.position = position →
            ∀ p, context.after (some r) p visit = p) ∧
      ((∀ x, r.follow? position = some x → x.isNull = true) →
        EachInstance (fun v result =>
          if mode.isUnset v then
            if mode = .plan then result = .unknown t
            else ∃ g : Generator, result = (g.generate t).1
          else result = v) position schema.root target done.value) := by
  intro context r done
  refine ⟨?_, fun x w hx hnull hw => ⟨?_, ?_, ?_⟩, fun hnone => ?_⟩
  · exact congrArg Progress.generator (context.progress_block schema target ⟨g, []⟩)
  · refine eachInstance_synthesize hschema hunambiguous hleaf fun v path p => ?_
    rw [Context.leaf_of_converts hx hnull hw]
    rfl
  · intro d hd hposition
    obtain ⟨visit, hvisit, hreport⟩ :=
      (mem_usable_or_exists_visit hd).resolve_left List.not_mem_nil
    rw [Context.path_of_report? hreport] at hposition
    obtain ⟨hpart, hheld⟩ :=
      Block.leaf_of_mem_visits hschema hunambiguous hleaf hvisit hposition
    have hnothing : context.report? (some r) visit = none :=
      Context.report?_of_converts hpart (hheld.trans hx) hw
    cases hnothing.symm.trans hreport
  · intro visit hvisit hposition p
    obtain ⟨hpart, hheld⟩ :=
      Block.leaf_of_mem_visits hschema hunambiguous hleaf hvisit hposition
    exact Context.after_of_converts hpart (hheld.trans hx) hnull hw p
  · refine eachInstance_synthesize hschema hunambiguous hleaf fun v path p => ?_
    exact context.leaf_of_forall_isNull hnone v path p

/-! ### A network -/

/-- A serial number for the rules of a network that is no text yet. -/
def trueSerial : List (String × Value) := [("rule", .object [("serial", .bool true)])]

/-- The loose network is planned with the serial number: its rules without one have it as a text,
and the serial numbers of its routes are unknown. -/
theorem broadcast_synthesize_trueSerial :
    network.isWellFormed = true ∧ network.isUnambiguous = true ∧
      network.part? ["rule", "serial"] = some (.leaf .string true) ∧
      network.part? ["route", "serial"] = some (.leaf .string true) ∧
      let done := planResource network looseNetwork
        ⟨some (.object trueSerial), SourceRange.unspecified⟩ (Generator.seeded 0)
      EachInstance (fun v result => result = if v.isNull then .string "true" else v)
          ["rule", "serial"] network.root looseNetwork done.value ∧
        (∀ d ∈ done.diagnostics, d.path.attributeNames ≠ ["rule", "serial"]) ∧
        EachInstance (fun v result => if v.isNull then result = .unknown .string else result = v)
          ["route", "serial"] network.root looseNetwork done.value := by
  have hrule := broadcast_synthesize network (by decide) (by decide) .plan looseNetwork trueSerial
    SourceRange.unspecified (Generator.seeded 0) ["rule", "serial"] .string rfl
  have hroute := broadcast_synthesize network (by decide) (by decide) .plan looseNetwork trueSerial
    SourceRange.unspecified (Generator.seeded 0) ["route", "serial"] .string rfl
  obtain ⟨hvalue, hdiagnostics, -⟩ := hrule.2.1 (.bool true) (.string "true") rfl rfl rfl
  exact ⟨by decide, by decide, rfl, rfl, hvalue, hdiagnostics, hroute.2.2 nofun⟩

end ProviderMock
