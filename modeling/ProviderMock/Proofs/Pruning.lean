import ProviderMock.Proofs.Noninterference
import ProviderMock.Proofs.Visits

/-!
# What a synthesis uses of a replacement

A replacement may be wrong in many places at once, and every wrong part is ignored as if it were not
there. `Replacement.prune` cuts a replacement down to what a schema can use of it: what converts,
for computed leaves, and objects, for nested ones.

* **two walks** — `Walk.Mutes`: one walk comes to the same results as another one, with the same
  draws, but reports nothing.
* **one leaf** — `Context.mutes_leaf`: a leaf is filled alike from a replacement and from the pruned
  one.
* **a whole walk** — `Context.mutes_field` and `synthesize_prune`: a synthesis with the pruned
  replacement has the same value and the same generator, and no diagnostics.
-/

namespace ProviderMock

/-! ## Pruning -/

mutual

/-- What a field can use of its replacement: for a computed leaf what converts and is not null, and
for nested objects an object, with what their fields can use. -/
def Part.prune : Part → Option Value → Option Value
  | .leaf t computed, r => r.filter fun x => computed && !x.isNull && (x.convert t).isOk
  | .nested _ parts, r =>
    match r with
    | some (.object fields) => some (.object (Part.pruneFields parts fields))
    | _ => none
termination_by structural p => p

/-- What the fields of an object can use of the fields of a replacement. -/
def Part.pruneFields : List (String × Part) → List (String × Value) → List (String × Value)
  | [], _ => []
  | (name, part) :: rest, fields =>
    match part.prune (fields.lookup name) with
    | none => Part.pruneFields rest fields
    | some x => (name, x) :: Part.pruneFields rest fields
termination_by structural ps => ps

end

/-- What a block can use of a replacement. -/
def Replacement.prune (schema : Block) (r : Replacement) : Replacement :=
  ⟨schema.root.prune r.value, r.range⟩

namespace Part

/-- A field can use nothing of no replacement. -/
theorem prune_none (part : Part) : part.prune none = none := by
  cases part <;> rfl

/-- What is not named is not there after pruning either. -/
theorem lookup_pruneFields_of_not_mem {parts : List (String × Part)} {name : String}
    (h : name ∉ Fields.names parts) (fields : List (String × Value)) :
    (pruneFields parts fields).lookup name = none := by
  induction parts with
  | nil => rfl
  | cons part rest ih =>
    obtain ⟨n, part⟩ := part
    rw [Fields.names_cons, List.mem_cons, not_or] at h
    rw [pruneFields]
    split
    · exact ih h.2
    · rw [Fields.lookup_cons, if_neg h.1]
      exact ih h.2

/-- The pruned replacement has under each name what the field can use. -/
theorem lookup_pruneFields {parts : List (String × Part)} (hdistinct : Fields.Distinct parts)
    {part : String × Part} (hpart : part ∈ parts) (fields : List (String × Value)) :
    (pruneFields parts fields).lookup part.1 = part.2.prune (fields.lookup part.1) := by
  induction parts with
  | nil => cases hpart
  | cons first rest ih =>
    obtain ⟨n, q⟩ := first
    obtain ⟨hn, hrest⟩ := List.nodup_cons.mp hdistinct
    rw [pruneFields]
    rcases List.mem_cons.mp hpart with rfl | hpart
    · split
      · rename_i hnone
        rw [lookup_pruneFields_of_not_mem hn]
        exact hnone.symm
      · rename_i x hx
        rw [Fields.lookup_cons, if_pos rfl]
        exact hx.symm
    · have hname : part.1 ∈ Fields.names rest := List.mem_map.mpr ⟨part, hpart, rfl⟩
      have hne : part.1 ≠ n := fun heq => hn (heq ▸ hname)
      split
      · exact ih hrest hpart
      · rw [Fields.lookup_cons, if_neg hne]
        exact ih hrest hpart

/-- Of a replacement of nested objects each field gets what it can use of what it got before. -/
theorem bind_field?_prune {nesting : Nesting} {parts : List (String × Part)}
    (hdistinct : Fields.Distinct parts) {part : String × Part} (hpart : part ∈ parts)
    (r : Option Value) :
    ((Part.nested nesting parts).prune r).bind (·.field? part.1) =
      part.2.prune (r.bind (·.field? part.1)) := by
  cases r with
  | none => exact part.2.prune_none.symm
  | some x =>
    cases x with
    | object fields => exact lookup_pruneFields hdistinct hpart fields
    | _ => exact part.2.prune_none.symm

/-- What nested objects can use of a replacement is an object. -/
theorem object_of_mem_prune {nesting : Nesting} {parts : List (String × Part)} {r : Option Value} :
    ∀ x ∈ (Part.nested nesting parts).prune r, ∃ fields, x = .object fields := by
  intro x hx
  cases r with
  | none => cases hx
  | some y =>
    cases y with
    | object fields => exact ⟨_, (Option.some.inj hx).symm⟩
    | _ => cases hx

end Part

/-! ## Two walks -/

namespace Walk

variable {α β γ δ : Type} {R : α → β → Prop} {S : γ → δ → Prop}

/-- The first walk comes to results that are related to those of the second one and makes the same
draws, but reports nothing. -/
def Mutes (R : α → β → Prop) (m : Walk α) (n : Walk β) : Prop :=
  ∀ p q : Progress, p.generator = q.generator → R (m p).1 (n q).1 ∧
    (m p).2.generator = (n q).2.generator ∧ (m p).2.diagnostics = p.diagnostics

theorem mutes_pure {a : α} {b : β} (h : R a b) : Mutes R (pure a) (pure b) :=
  fun _ _ hg => ⟨h, hg, rfl⟩

theorem mutes_generate (t : Ty) : Mutes Eq (generate t) (generate t) := by
  intro p q hg
  simp [generate, hg]

/-- What the second walk reports makes no difference. -/
theorem Mutes.raise {m : Walk α} {n : Walk β} (h : Mutes R m n) (d : Diagnostic) :
    Mutes R m (Walk.raise d >>= fun _ => n) :=
  fun p q hg => h p ⟨q.generator, q.diagnostics.push d⟩ hg

theorem Mutes.bind {m : Walk α} {n : Walk β} (h : Mutes R m n) {f : α → Walk γ} {g : β → Walk δ}
    (hfg : ∀ a b, R a b → Mutes S (f a) (g b)) : Mutes S (m >>= f) (n >>= g) := by
  intro p q hg
  obtain ⟨hR, hgenerator, hdiagnostics⟩ := h p q hg
  obtain ⟨hS, hgenerator', hdiagnostics'⟩ := hfg _ _ hR _ _ hgenerator
  exact ⟨hS, hgenerator', hdiagnostics'.trans hdiagnostics⟩

theorem mutes_each {f g : Value → Path → Walk β} (h : ∀ v path, Mutes Eq (f v path) (g v path))
    (path : Path) (children : List (PathStep × Value)) :
    Mutes Eq (each f path children) (each g path children) := by
  induction children with
  | nil => exact mutes_pure rfl
  | cons child rest ih =>
    refine (h _ _).bind fun a b hab => ih.bind fun as bs habs => ?_
    rw [hab, habs]
    exact mutes_pure rfl

end Walk

namespace Synthesis.Context

open Walk (Mutes)

variable (context : Context)

theorem mutes_fallback (t : Ty) : Mutes Eq (context.fallback t) (context.fallback t) := by
  rw [fallback]
  split
  · exact Walk.mutes_pure rfl
  · exact Walk.mutes_generate t

/-- **A leaf is filled alike from what it can use of its replacement.** What it cannot use is
ignored without a report. -/
theorem mutes_leaf (t : Ty) (target : Value) (r : Option Value) (path : Path) :
    Mutes Eq (context.leaf t target ((Part.leaf t true).prune r) path)
      (context.leaf t target r path) := by
  cases hunset : context.mode.isUnset target with
  | false =>
    rw [leaf_of_set hunset, leaf_of_set hunset]
    exact Walk.mutes_pure rfl
  | true =>
    cases hr : r.filter (fun x => !x.isNull) with
    | none =>
      rw [leaf_of_none hunset hr, leaf_of_none hunset]
      · exact context.mutes_fallback t
      · rw [Option.filter_eq_none_iff] at hr
        rw [Part.prune, Option.filter_eq_none_iff]
        exact fun x hx => hr x (Option.filter_eq_some_iff.mp hx).1
    | some x =>
      obtain ⟨hx, hnull⟩ := Option.filter_eq_some_iff.mp hr
      obtain rfl : r = some x := hx
      cases hv : x.convert t with
      | ok v =>
        have hpruned : (Part.leaf t true).prune (some x) = some x := by
          simp [Part.prune, Option.filter, hv, hnull, Except.isOk, Except.toBool]
        rw [hpruned, leaf_of_ok hunset hr hv]
        exact Walk.mutes_pure rfl
      | error e =>
        have hpruned : (Part.leaf t true).prune (some x) = none := by
          simp [Part.prune, Option.filter, hv, Except.isOk, Except.toBool]
        rw [hpruned, leaf_of_none hunset rfl, leaf_of_error hunset hr hv]
        exact (context.mutes_fallback t).raise _

/-- A walk over fields is muted by pruning if the walk over each field is. -/
theorem mutes_fields {parts : List (String × Part)}
    (h : ∀ part ∈ parts, ∀ target r path,
      Mutes Eq (context.field part.2 target (part.2.prune r) path)
        (context.field part.2 target r path))
    (target : Value) {pruned r : Option Value}
    (hpruned : ∀ part ∈ parts,
      pruned.bind (·.field? part.1) = part.2.prune (r.bind (·.field? part.1)))
    (path : Path) :
    Mutes Eq (context.fields parts target pruned path) (context.fields parts target r path) := by
  induction parts with
  | nil => exact Walk.mutes_pure rfl
  | cons part rest ih =>
    obtain ⟨name, part⟩ := part
    have hfirst := h _ List.mem_cons_self (target.fieldOr name part.type) (r.bind (·.field? name))
      (path.step (.attr name))
    rw [← hpruned _ List.mem_cons_self] at hfirst
    have hrest := ih (fun q hq => h q (List.mem_cons_of_mem _ hq))
      fun q hq => hpruned q (List.mem_cons_of_mem _ hq)
    refine hfirst.bind fun v w hvw => hrest.bind fun vs ws hvws => ?_
    rw [hvw, hvws]
    exact Walk.mutes_pure rfl

/-- **A walk is muted by pruning its replacement**, if no name stands for two fields. -/
theorem mutes_field {part : Part} (hpart : part.Unambiguous) (target : Value) (r : Option Value)
    (path : Path) :
    Mutes Eq (context.field part target (part.prune r) path)
      (context.field part target r path) := by
  induction part using Part.induction generalizing target r path with
  | leaf t computed =>
    cases computed with
    | false => exact Walk.mutes_pure rfl
    | true => exact context.mutes_leaf t target r path
  | nested nesting parts ih =>
    obtain ⟨hdistinct, hparts⟩ := hpart
    rw [Part.allUnambiguous_iff] at hparts
    -- what the nested objects are given, with pruning and without
    have hgiven : Mutes (fun pruned r => ∀ part ∈ parts,
        pruned.bind (·.field? part.1) = part.2.prune (r.bind (·.field? part.1)))
        (context.nestedReplacement ((Part.nested nesting parts).prune r) path)
        (context.nestedReplacement r path) := by
      intro p q hg
      refine ⟨fun part hpart => ?_, ?_, ?_⟩
      · rw [bind_field?_nestedReplacement, bind_field?_nestedReplacement]
        exact Part.bind_field?_prune hdistinct hpart r
      · rw [generator_nestedReplacement, generator_nestedReplacement, hg]
      · rw [context.nestedReplacement_of_object Part.object_of_mem_prune]
        rfl
    have hobject : ∀ {pruned r : Option Value}, (∀ part ∈ parts,
        pruned.bind (·.field? part.1) = part.2.prune (r.bind (·.field? part.1))) → ∀ child path,
        Mutes Eq (context.object parts child pruned path) (context.object parts child r path) :=
      fun hpruned child path => by
        refine (context.mutes_fields (fun q hq => ih q hq (hparts q hq)) child hpruned path).bind
          fun vs ws hvws => ?_
        rw [hvws]
        exact Walk.mutes_pure rfl
    cases nesting with
    | single =>
      rw [field_single, field_single]
      exact hgiven.bind fun pruned r hpruned => hobject hpruned target path
    | many collection =>
      cases hchildren : collection.children? target with
      | none =>
        rw [context.field_of_absent parts _ path hchildren,
          context.field_of_absent parts _ path hchildren]
        exact hgiven.bind fun _ _ _ => Walk.mutes_pure rfl
      | some children =>
        rw [context.field_of_children parts _ path hchildren,
          context.field_of_children parts _ path hchildren]
        refine hgiven.bind fun pruned r hpruned => ?_
        refine (Walk.mutes_each (hobject hpruned) path children).bind fun vs ws hvws => ?_
        rw [hvws]
        exact Walk.mutes_pure rfl

end Synthesis.Context

/-! ## Syntheses -/

/-- What is unusable as a whole has no fields. -/
theorem Replacement.bind_field?_usable (r : Replacement) (name : String) :
    r.usable.1.bind (·.field? name) = r.value.bind (·.field? name) := by
  obtain ⟨value, range⟩ := r
  cases value with
  | none => rfl
  | some x =>
    cases hnull : x.isNull with
    | true => simp [usable, isValid, hnull, Value.field?_of_isNull hnull]
    | false =>
      cases hobject : x.isObject with
      | true => simp [usable, isValid, hnull, hobject]
      | false => simp [usable, isValid, hnull, hobject, Value.field?_of_not_isObject hobject]

/-- A pruned replacement is absent or an object, and there is nothing to report of it as a whole. -/
theorem Replacement.usable_prune (schema : Block) (r : Replacement) :
    (r.prune schema).usable = (schema.root.prune r.value, []) := by
  cases hvalue : schema.root.prune r.value with
  | none => rw [usable, prune, hvalue]
  | some x =>
    obtain ⟨fields, rfl⟩ := Part.object_of_mem_prune x hvalue
    rw [usable, prune, hvalue]
    rfl

open Synthesis

/-- **A wrong part of a replacement is ignored as if it were absent.** A synthesis with what the
schema can use of a replacement has the value and the generator of the synthesis with the whole
replacement, however many of its parts are wrong, and it reports nothing. -/
theorem synthesize_prune (schema : Block) (hschema : schema.isWellFormed = true)
    (hunambiguous : schema.isUnambiguous = true) (mode : Mode) (target : Value) (r : Replacement)
    (g : Generator) :
    let pruned := synthesize mode schema target (r.prune schema) g
    let whole := synthesize mode schema target r g
    pruned.value = whole.value ∧ pruned.generator = whole.generator ∧ pruned.diagnostics = [] := by
  obtain ⟨hdistinct, hparts⟩ := Block.unambiguous_parts schema hschema hunambiguous
  rw [Part.allUnambiguous_iff] at hparts
  have hgiven : ∀ part ∈ schema.parts, ((r.prune schema).usable.1).bind (·.field? part.1) =
      part.2.prune (r.usable.1.bind (·.field? part.1)) := by
    intro part hpart
    rw [Replacement.usable_prune, Replacement.bind_field?_usable]
    exact @Part.bind_field?_prune .single _ hdistinct _ hpart r.value
  have hwalk := (Context.mutes_fields ⟨mode, r.range⟩
    (fun part hpart => Context.mutes_field _ (hparts part hpart)) target hgiven Path.root).bind
      fun vs ws hvws => Walk.mutes_pure (congrArg Value.ofFields hvws)
  obtain ⟨hvalue, hgenerator, hdiagnostics⟩ := hwalk ⟨g, []⟩ ⟨g, []⟩ rfl
  refine ⟨hvalue, hgenerator, ?_⟩
  have hnone : (r.prune schema).usable.2 = [] := by rw [Replacement.usable_prune]
  exact (congrArg (Diagnostics.extend _) hdiagnostics).trans hnone

/-! ### A network -/

/-- Serial numbers for the rules of a network, and nothing else that is of use: an identifier that
is no text, subnets that are no object, and routes that are not known yet. -/
def wrongNetwork : Replacement :=
  ⟨some (.object [("id", .list .string []), ("name", .string "n"), ("subnet", .bool false),
      ("rule", .object [("serial", .string "s"), ("address", .string "a")]),
      ("route", .unknown (.object []))]),
    SourceRange.unspecified⟩

/-- Of the wrong network the serial numbers are left, and reading with them comes to the same. -/
theorem synthesize_prune_wrongNetwork :
    network.isWellFormed = true ∧ network.isUnambiguous = true ∧
      (wrongNetwork.prune network).value =
        some (.object [("rule", .object [("serial", .string "s")])]) ∧
      let pruned := readDataSource network looseNetwork (wrongNetwork.prune network)
        (Generator.seeded 0)
      let whole := readDataSource network looseNetwork wrongNetwork (Generator.seeded 0)
      pruned.value = whole.value ∧ pruned.generator = whole.generator ∧ pruned.diagnostics = [] :=
  ⟨by decide, by decide, rfl, synthesize_prune network (by decide) (by decide) .read looseNetwork
    wrongNetwork (Generator.seeded 0)⟩

end ProviderMock
