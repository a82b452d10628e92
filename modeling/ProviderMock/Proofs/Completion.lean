import ProviderMock.Proofs.Aligned
import ProviderMock.Synthesis.Outcome

/-!
# What a synthesis makes of a target

A walk draws strings, raises diagnostics and reads a replacement, but all this shows in the unset
computed leaves alone. `Completes` relates targets and results and leaves open what becomes of an
unset leaf: a predicate `Fill` of its type and its value says so.

* **what collections hold** — `Collection.contents?` reads a collection of one kind and no other;
  `Collection.exists_contents_build` says what it reads of what was built.
* **one leaf** — `Context.leaf_cases`: an unset leaf takes what the replacement converts to, or
  the fallback of the mode.
* **a whole walk** — `completes_field`, `completes_block` and `completes_synthesize`: if what the
  leaves of a walk are filled with satisfies `Fill`, its result completes the target.
* **collections** — `Completes.absent`, `Completes.list`, `Completes.set` and `Completes.map` say
  what this comes to for what is no collection and for each kind of collection.
-/

namespace ProviderMock

/-- Whether a target that is no collection becomes an empty one: a null does, and an unknown does
when it is applied. -/
def Mode.empties (mode : Mode) (target : Value) : Bool :=
  target.isNull || (mode = .apply && target.isUnknown)

/-- A field that a target has is the one to complete. -/
theorem Value.fieldOr_of_field? {v w : Value} {name : String} (h : v.field? name = some w)
    (t : Ty) : v.fieldOr name t = w := by
  cases v with
  | object fields =>
    have hlookup : fields.lookup name = some w := h
    rw [fieldOr, hlookup]
    rfl
  | _ => cases h

/-- An object has each of its fields under its name, if none is named twice. -/
theorem Value.fieldOr_of_mem {fields : List (String × Value)} (h : Fields.Distinct fields)
    {name : String} {v : Value} (hv : (name, v) ∈ fields) (t : Ty) :
    (Value.object fields).fieldOr name t = v :=
  fieldOr_of_field? (v := .object fields) (Fields.lookup_of_mem h hv) t

/-- What is usable of a replacement is its value. -/
theorem Replacement.mem_of_mem_usable {r : Replacement} {x : Value} (h : x ∈ r.usable.1) :
    x ∈ r.value := by
  unfold Replacement.usable at h
  split at h
  · cases h
  · rename_i hvalue
    rw [hvalue]
    split at h
    · cases h
    · split at h
      · cases h
      · exact h

/-! ## What collections hold -/

/-- A value with its position is one of the values, at some index. -/
theorem exists_index_of_mem_indexed {values : List Value} {start : Nat} {child : PathStep × Value}
    (h : child ∈ indexed start values) : ∃ i, child.1 = .index i ∧ child.2 ∈ values := by
  induction values generalizing start with
  | nil => cases h
  | cons v rest ih =>
    rcases List.mem_cons.mp h with rfl | h
    · exact ⟨start, rfl, List.mem_cons_self⟩
    · obtain ⟨i, hi, hmem⟩ := ih h
      exact ⟨i, hi, List.mem_cons_of_mem _ hmem⟩

/-- The element type and the elements of a collection of this kind and no other. -/
def Collection.contents? : Collection → Value → Option (Ty × List Value)
  | .list, .list t elements => some (t, elements)
  | .set, .set t elements => some (t, elements)
  | .map, .map t entries => some (t, entries.map Prod.snd)
  | _, _ => none

/-- A collection of the kind is all there is to it. -/
theorem Collection.contents?_cases {collection : Collection} {v : Value} {t : Ty}
    {elements : List Value} (h : collection.contents? v = some (t, elements)) :
    (collection = .list ∧ v = .list t elements) ∨ (collection = .set ∧ v = .set t elements) ∨
      ∃ entries, collection = .map ∧ v = .map t entries ∧ elements = entries.map Prod.snd := by
  unfold contents? at h
  split at h
  · obtain ⟨rfl, rfl⟩ := Prod.mk.inj (Option.some.inj h)
    exact .inl ⟨rfl, rfl⟩
  · obtain ⟨rfl, rfl⟩ := Prod.mk.inj (Option.some.inj h)
    exact .inr (.inl ⟨rfl, rfl⟩)
  · obtain ⟨rfl, rfl⟩ := Prod.mk.inj (Option.some.inj h)
    exact .inr (.inr ⟨_, rfl, rfl, rfl⟩)
  · cases h

/-- The elements under their positions and keys are the elements. -/
theorem Collection.mem_of_mem_children {collection : Collection} {v : Value} {t : Ty}
    {elements : List Value} (h : collection.contents? v = some (t, elements))
    {children : List (PathStep × Value)} (hchildren : collection.children? v = some children)
    {child : PathStep × Value} (hchild : child ∈ children) : child.2 ∈ elements := by
  rcases contents?_cases h with ⟨rfl, rfl⟩ | ⟨rfl, rfl⟩ | ⟨entries, rfl, rfl, rfl⟩
  · obtain rfl := Option.some.inj hchildren
    obtain ⟨-, -, hmem⟩ := exists_index_of_mem_indexed hchild
    exact hmem
  · obtain rfl := Option.some.inj hchildren
    obtain ⟨-, -, hmem⟩ := exists_index_of_mem_indexed hchild
    exact hmem
  · obtain rfl := Option.some.inj hchildren
    obtain ⟨entry, hentry, rfl⟩ := List.mem_map.mp hchild
    exact List.mem_map_of_mem hentry

/-- What is built is a collection of the kind, with values that it was built of. -/
theorem Collection.exists_contents_build (collection : Collection) (t : Ty)
    (results : List (PathStep × Value)) :
    ∃ elements, collection.contents? (collection.build t results) = some (t, elements) ∧
      ∀ e ∈ elements, ∃ result ∈ results, result.2 = e := by
  cases collection with
  | list => exact ⟨_, rfl, fun e he => List.mem_map.mp he⟩
  | set => exact ⟨_, rfl, fun e he => List.mem_map.mp ((Value.sublist_distinct _).subset he)⟩
  | map =>
    refine ⟨_, rfl, fun e he => ?_⟩
    obtain ⟨entry, hentry, rfl⟩ := List.mem_map.mp he
    obtain ⟨⟨step, v⟩, hresult, heq⟩ := List.mem_filterMap.mp (Entries.mem_of_mem_ofList hentry)
    refine ⟨(step, v), hresult, ?_⟩
    -- what has no key is no entry of the map
    cases step with
    | key k =>
      obtain rfl := Option.some.inj heq
      rfl
    | _ => cases heq

namespace Synthesis

open Fields (Aligned)

mutual

/-- The value `v` completes the target of a field: unset computed leaves are filled as `Fill`
allows, and everything else is as the target has it. -/
def Completes (mode : Mode) (Fill : Ty → Value → Prop) : Part → Value → Value → Prop
  | .leaf t computed, target, v =>
    if computed && mode.isUnset target then Fill t v else v = target
  | .nested .single parts, target, v =>
    ∃ fields, CompletesFields mode Fill parts target fields ∧ v = .ofFields fields
  | .nested (.many collection) parts, target, v =>
    match collection.children? target with
    | none =>
      v = if mode.empties target then collection.build (Part.objectType parts) [] else target
    | some children =>
      ∃ results : List (PathStep × Value),
        List.Forall₂ (fun child result => child.1 = result.1 ∧
          ∃ fields, CompletesFields mode Fill parts child.2 fields ∧ result.2 = .ofFields fields)
          children results ∧
        v = collection.build (Part.objectType parts) results
termination_by structural p => p

/-- The fields complete a target along the parts of an object, in declaration order. -/
def CompletesFields (mode : Mode) (Fill : Ty → Value → Prop) :
    List (String × Part) → Value → List (String × Value) → Prop
  | [], _, fields => fields = []
  | (name, part) :: rest, target, fields =>
    ∃ v vs, fields = (name, v) :: vs ∧
      Completes mode Fill part (target.fieldOr name part.type) v ∧
      CompletesFields mode Fill rest target vs
termination_by structural ps => ps

end

/-- The object `v` completes a target along the parts of an object. -/
def CompletesObject (mode : Mode) (Fill : Ty → Value → Prop) (parts : List (String × Part))
    (target v : Value) : Prop :=
  ∃ fields, CompletesFields mode Fill parts target fields ∧ v = .ofFields fields

variable {mode : Mode} {Fill : Ty → Value → Prop}

/-- Fields complete a target if each of them completes the field of the target. -/
theorem completesFields_iff {parts : List (String × Part)} {target : Value}
    {fields : List (String × Value)} :
    CompletesFields mode Fill parts target fields ↔
      Aligned (fun name part v => Completes mode Fill part (target.fieldOr name part.type) v)
        parts fields := by
  induction parts generalizing fields with
  | nil => cases fields <;> simp [CompletesFields, Aligned]
  | cons p rest ih =>
    obtain ⟨name, part⟩ := p
    rw [CompletesFields]
    constructor
    · rintro ⟨v, vs, rfl, hv, hvs⟩
      exact .cons ⟨rfl, hv⟩ (ih.mp hvs)
    · rintro (_ | ⟨⟨rfl, hv⟩, hvs⟩)
      exact ⟨_, _, rfl, hv, ih.mpr hvs⟩

/-- Of distinct names nothing is overwritten: the completed object has the completed fields. -/
theorem CompletesObject.exists_fields {parts : List (String × Part)}
    (hdistinct : Fields.Distinct parts) {target v : Value}
    (h : CompletesObject mode Fill parts target v) :
    ∃ fields, v = .object fields ∧ Fields.Distinct fields ∧
      CompletesFields mode Fill parts target fields := by
  obtain ⟨fields, hfields, rfl⟩ := h
  have hfresh : Fields.Distinct fields := (completesFields_iff.mp hfields).distinct hdistinct
  exact ⟨fields, by rw [Value.ofFields, Fields.ofList_eq_self hfresh], hfresh, hfields⟩

/-- Of distinct names, what the completed object has under each of them completes the field of the
target. -/
theorem CompletesObject.field {parts : List (String × Part)} (hdistinct : Fields.Distinct parts)
    {target v : Value} (h : CompletesObject mode Fill parts target v) {part : String × Part}
    (hpart : part ∈ parts) :
    Completes mode Fill part.2 (target.fieldOr part.1 part.2.type)
      (v.fieldOr part.1 part.2.type) := by
  obtain ⟨fields, rfl, hfresh, hfields⟩ := h.exists_fields hdistinct
  obtain ⟨⟨_, w⟩, hw, rfl, hcompletes⟩ := exists_mem_right (completesFields_iff.mp hfields) hpart
  rw [Value.fieldOr_of_mem hfresh hw]
  exact hcompletes

/-- Two objects with related fields. -/
def Objects (P : List (String × Value) → List (String × Value) → Prop) (v w : Value) : Prop :=
  ∃ fields more, v = .object fields ∧ w = .object more ∧ P fields more

/-! ## One leaf -/

namespace Context

variable (context : Context)

variable {context} {t : Ty} {target : Value}

/-- A plan leaves what is not replaced unknown. -/
theorem fallback_of_plan (hmode : context.mode = .plan) (t : Ty) :
    context.fallback t = pure (.unknown t) := by
  rw [fallback, hmode]

/-- A read and an apply generate what is not replaced. -/
theorem fallback_of_ne_plan (hmode : context.mode ≠ .plan) (t : Ty) :
    context.fallback t = Walk.generate t := by
  obtain ⟨mode, range⟩ := context
  cases mode with
  | plan => exact absurd rfl hmode
  | read | apply => rfl

/-- A leaf that is set is kept. -/
theorem leaf_of_set (h : context.mode.isUnset target = false) (r : Option Value) (path : Path) :
    context.leaf t target r path = pure target := by
  rw [leaf, if_neg (by simp [h])]

/-- An unset leaf without a replacement falls back. -/
theorem leaf_of_none (h : context.mode.isUnset target = true) {r : Option Value}
    (hr : r.filter (fun x => !x.isNull) = none) (path : Path) :
    context.leaf t target r path = context.fallback t := by
  rw [leaf, if_pos h, hr]

/-- An unset leaf takes a replacement that converts. -/
theorem leaf_of_ok (h : context.mode.isUnset target = true) {r : Option Value} {x v : Value}
    (hr : r.filter (fun x => !x.isNull) = some x) (hv : x.convert t = .ok v) (path : Path) :
    context.leaf t target r path = pure v := by
  simp only [leaf, if_pos h, hr, hv]

/-- An unset leaf reports a replacement that does not convert, and falls back. -/
theorem leaf_of_error (h : context.mode.isUnset target = true) {r : Option Value} {x : Value}
    {e : ConversionError} (hr : r.filter (fun x => !x.isNull) = some x)
    (he : x.convert t = .error e) (path : Path) :
    context.leaf t target r path = (do
      Walk.raise (.typeMismatch t path context.range e)
      context.fallback t) := by
  simp only [leaf, if_pos h, hr, he]

/-- A leaf whose replacement converts has no effects: it becomes what the replacement converts to if
it is unset. -/
theorem leaf_of_converts {r : Option Value} {x w : Value} (hx : r = some x)
    (hnull : x.isNull = false) (hw : x.convert t = .ok w) (target : Value) (path : Path) :
    context.leaf t target r path = pure (if context.mode.isUnset target then w else target) := by
  cases hunset : context.mode.isUnset target with
  | false => exact leaf_of_set hunset r path
  | true =>
    refine leaf_of_ok hunset (Option.filter_eq_some_iff.mpr ⟨hx, ?_⟩) hw path
    rw [hnull]
    rfl

variable (context)

/-- Without a replacement a plan leaves the value unknown, and the other modes generate one. -/
theorem fallback_cases (t : Ty) (p : Progress) :
    (context.mode = .plan ∧ (context.fallback t p).1 = .unknown t) ∨
      (context.mode ≠ .plan ∧ ∃ g, (context.fallback t p).1 = (Generator.generate t g).1) := by
  by_cases hmode : context.mode = .plan
  · exact .inl ⟨hmode, by rw [fallback_of_plan hmode]; rfl⟩
  · exact .inr ⟨hmode, p.generator, by rw [fallback_of_ne_plan hmode]; rfl⟩

/-- What an unset leaf becomes: what the replacement converts to, the unknown of a plan, or what
the other modes generate. -/
theorem leaf_cases (h : context.mode.isUnset target = true) (r : Option Value) (path : Path)
    (p : Progress) :
    (∃ x ∈ r, x.isNull = false ∧ x.convert t = .ok (context.leaf t target r path p).1) ∨
      (context.mode = .plan ∧ (context.leaf t target r path p).1 = .unknown t) ∨
      (context.mode ≠ .plan ∧
        ∃ g, (context.leaf t target r path p).1 = (Generator.generate t g).1) := by
  cases hr : r.filter (fun x => !x.isNull) with
  | none =>
    rw [leaf_of_none h hr]
    exact .inr (context.fallback_cases t p)
  | some x =>
    cases hv : x.convert t with
    | ok v =>
      obtain ⟨hmem, hnull⟩ := Option.filter_eq_some_iff.mp hr
      rw [leaf_of_ok h hr hv]
      exact .inl ⟨x, hmem, by simpa using hnull, hv⟩
    | error e =>
      rw [leaf_of_error h hr hv]
      exact .inr (context.fallback_cases t _)

/-- The replacement of nested objects is the one at hand, or none. -/
theorem mem_of_mem_nestedReplacement {r : Option Value} {path : Path} {p : Progress} {x : Value}
    (h : x ∈ (context.nestedReplacement r path p).1) : x ∈ r := by
  unfold nestedReplacement at h
  split at h
  · exact h
  · split at h
    · cases h
    · split at h
      · exact h
      · cases h

/-- What becomes of a target that is no collection. -/
theorem absent_eq (empty target : Value) :
    context.absent empty target = if context.mode.empties target then empty else target := by
  cases target <;> simp [absent, Mode.empties, Value.isNull, Value.isUnknown]

/-! ### Equations of the walk over nested objects -/

variable (parts : List (String × Part)) (target : Value) (r : Option Value) (path : Path)

theorem field_single :
    context.field (.nested .single parts) target r path = (do
      let r ← context.nestedReplacement r path
      context.object parts target r path) := rfl

variable {collection : Collection} {target}

theorem field_of_absent (h : collection.children? target = none) :
    context.field (.nested (.many collection) parts) target r path = (do
      let _ ← context.nestedReplacement r path
      return context.absent (collection.build (Part.objectType parts) []) target) := by
  simp only [field, h]

theorem field_of_children {children : List (PathStep × Value)}
    (h : collection.children? target = some children) :
    context.field (.nested (.many collection) parts) target r path = (do
      let r ← context.nestedReplacement r path
      let results ← Walk.each (fun child path => context.object parts child r path) path children
      return collection.build (Part.objectType parts) results) := by
  simp only [field, h, object]

end Context

/-! ## A whole walk -/

section Walk

variable (context : Context) {Q : Value → Prop}

/-- A walk over fields completes a target if the walk over each field does. -/
theorem completesFields_fields
    (hQ : ∀ x name y, Q x → x.field? name = some y → Q y) {parts : List (String × Part)}
    (h : ∀ part ∈ parts, ∀ target r path p, (∀ x ∈ r, Q x) →
      Completes context.mode Fill part.2 target (context.field part.2 target r path p).1)
    (target : Value) {r : Option Value} (hr : ∀ x ∈ r, Q x) (path : Path) (p : Progress) :
    CompletesFields context.mode Fill parts target (context.fields parts target r path p).1 := by
  induction parts generalizing p with
  | nil => rfl
  | cons part rest ih =>
    obtain ⟨name, part⟩ := part
    refine ⟨_, _, rfl, h _ List.mem_cons_self _ _ _ _ ?_,
      ih (fun part hpart => h part (List.mem_cons_of_mem _ hpart)) _⟩
    intro y hy
    obtain ⟨x, hx, hxy⟩ := Option.bind_eq_some_iff.mp hy
    exact hQ x name y (hr x hx) hxy

/-- A walk over children relates each to its result, in order. -/
theorem forall₂_each_of_mem {β : Type} {f : Value → Path → Walk β} {R : Value → β → Prop}
    {path : Path} {children : List (PathStep × Value)}
    (h : ∀ child ∈ children, ∀ p, R child.2 (f child.2 (path.step child.1) p).1) (p : Progress) :
    List.Forall₂ (fun child result => child.1 = result.1 ∧ R child.2 result.2) children
      (Walk.each f path children p).1 := by
  induction children generalizing p with
  | nil => exact .nil
  | cons child rest ih =>
    obtain ⟨step, v⟩ := child
    exact .cons ⟨rfl, h _ List.mem_cons_self p⟩
      (ih (fun child hchild => h child (List.mem_cons_of_mem _ hchild)) _)

/-- A walk over children relates each to its result, if a step from anywhere does. -/
theorem forall₂_each {β : Type} {f : Value → Path → Walk β} {R : Value → β → Prop}
    (h : ∀ v path p, R v (f v path p).1) (path : Path) (children : List (PathStep × Value))
    (p : Progress) :
    List.Forall₂ (fun child result => child.1 = result.1 ∧ R child.2 result.2) children
      (Walk.each f path children p).1 :=
  forall₂_each_of_mem (fun child _ p => h child.2 _ p) p

/-- **A walk completes its target**, if what it fills unset leaves with satisfies `Fill`. The
replacement comes with a property that it hands down to its fields. -/
theorem completes_field
    (hQ : ∀ x name y, Q x → x.field? name = some y → Q y)
    (hfill : ∀ t target r path p, context.mode.isUnset target = true → (∀ x ∈ r, Q x) →
      Fill t (context.leaf t target r path p).1)
    (part : Part) (target : Value) {r : Option Value} (hr : ∀ x ∈ r, Q x) (path : Path)
    (p : Progress) :
    Completes context.mode Fill part target (context.field part target r path p).1 := by
  induction part using Part.induction generalizing target r path p with
  | leaf t computed =>
    rw [Completes]
    cases computed with
    | false => rfl
    | true =>
      rw [Bool.true_and]
      split
      · rename_i hunset
        exact hfill t target r path p hunset hr
      · rename_i hset
        show (context.leaf t target r path p).1 = target
        rw [Context.leaf_of_set (Bool.eq_false_iff.mpr hset)]
        rfl
  | nested nesting parts ih =>
    have hr' : ∀ x ∈ (context.nestedReplacement r path p).1, Q x :=
      fun x hx => hr x (context.mem_of_mem_nestedReplacement hx)
    have hobject : ∀ child path p, CompletesObject context.mode Fill parts child
        (context.object parts child (context.nestedReplacement r _ _).1 path p).1 :=
      fun child path p => ⟨_, completesFields_fields context hQ
        (fun part hpart target r path p hr => ih part hpart target hr path p) child hr' path p, rfl⟩
    cases nesting with
    | single => exact hobject target path _
    | many collection =>
      rw [Completes]
      cases hchildren : collection.children? target with
      | none =>
        rw [context.field_of_absent parts r path hchildren]
        exact context.absent_eq _ target
      | some children =>
        rw [context.field_of_children parts r path hchildren]
        exact ⟨_, forall₂_each hobject path children _, rfl⟩

/-- A walk over an object completes its target. -/
theorem completes_object
    (hQ : ∀ x name y, Q x → x.field? name = some y → Q y)
    (hfill : ∀ t target r path p, context.mode.isUnset target = true → (∀ x ∈ r, Q x) →
      Fill t (context.leaf t target r path p).1)
    (parts : List (String × Part)) (target : Value) {r : Option Value} (hr : ∀ x ∈ r, Q x)
    (path : Path) (p : Progress) :
    CompletesObject context.mode Fill parts target (context.object parts target r path p).1 :=
  ⟨_, completesFields_fields context hQ
    (fun part _ target _ path p hr => completes_field context hQ hfill part.2 target hr path p)
    target hr path p, rfl⟩

/-- **A walk over a block completes its target** along the parts of the block. -/
theorem completes_block
    (hQ : ∀ x name y, Q x → x.field? name = some y → Q y)
    (hfill : ∀ t target r path p, context.mode.isUnset target = true → (∀ x ∈ r, Q x) →
      Fill t (context.leaf t target r path p).1)
    (schema : Block) (target : Value) {r : Option Value} (hr : ∀ x ∈ r, Q x) (path : Path)
    (p : Progress) :
    CompletesObject context.mode Fill schema.parts target
      (context.block schema target r path p).1 :=
  completes_object context hQ hfill schema.parts target hr path p

/-- **A synthesis completes its target**, whatever it does with an unusable replacement. -/
theorem completes_synthesize {r : Replacement}
    (hQ : ∀ x name y, Q x → x.field? name = some y → Q y)
    (hfill : ∀ t target x path p, mode.isUnset target = true → (∀ y ∈ x, Q y) →
      Fill t ((⟨mode, r.range⟩ : Context).leaf t target x path p).1)
    (schema : Block) (target : Value) (hr : ∀ x ∈ r.value, Q x) (g : Generator) :
    CompletesObject mode Fill schema.parts target (synthesize mode schema target r g).value := by
  exact completes_block ⟨mode, r.range⟩ hQ hfill schema target
    (fun x hx => hr x (Replacement.mem_of_mem_usable hx)) Path.root ⟨g, []⟩

end Walk

/-! ## Collections -/

section Collections

variable {R : Value → Value → Prop} {parts : List (String × Part)} {target v : Value}

/-- Results at the positions of elements are results of the elements. -/
theorem forall₂_of_indexed {start : Nat} {elements : List Value} {results : List (PathStep × Value)}
    (h : List.Forall₂ (fun child result => child.1 = result.1 ∧ R child.2 result.2)
      (indexed start elements) results) : List.Forall₂ R elements (results.map Prod.snd) := by
  induction elements generalizing start results with
  | nil =>
    cases h
    exact .nil
  | cons e rest ih =>
    rcases h with _ | ⟨hR, hrest⟩
    exact .cons hR.2 (ih hrest)

/-- Results at the keys of entries are aligned with the entries. -/
theorem aligned_of_keyed {entries : List (String × Value)} {results : List (PathStep × Value)}
    (h : List.Forall₂ (fun child result => child.1 = result.1 ∧ R child.2 result.2)
      (entries.map fun entry => (PathStep.key entry.1, entry.2)) results) :
    ∃ vs, Aligned (fun _ => R) entries vs ∧
      ∀ elementType, Collection.map.build elementType results = .mapOf elementType vs := by
  refine ⟨_, ?_, fun _ => rfl⟩
  induction entries generalizing results with
  | nil =>
    cases h
    exact .nil
  | cons e rest ih =>
    rcases h with _ | @⟨_, ⟨step, w⟩, _, results, ⟨rfl, hR⟩, hrest⟩
    exact .cons ⟨rfl, hR⟩ (ih hrest)

/-- What is no collection becomes an empty one, or stays. -/
theorem Completes.absent {collection : Collection}
    (h : Completes mode Fill (.nested (.many collection) parts) target v)
    (habsent : collection.children? target = none) :
    v = if mode.empties target then collection.build (Part.objectType parts) [] else target := by
  rw [Completes, habsent] at h
  exact h

/-- Where a list is declared, what is neither a list nor a set becomes an empty list, or stays. -/
theorem Completes.absent_list (h : Completes mode Fill (.nested (.many .list) parts) target v)
    (hnone : target.elements? = none) :
    v = if mode.empties target then .list (Part.objectType parts) [] else target :=
  h.absent (congrArg (Option.map (indexed 0)) hnone)

/-- Where a set is declared, what is neither a list nor a set becomes an empty set, or stays. -/
theorem Completes.absent_set (h : Completes mode Fill (.nested (.many .set) parts) target v)
    (hnone : target.elements? = none) :
    v = if mode.empties target then .set (Part.objectType parts) [] else target :=
  h.absent (congrArg (Option.map (indexed 0)) hnone)

/-- Where a map is declared, what is neither a map nor an object becomes an empty map, or stays. -/
theorem Completes.absent_map (h : Completes mode Fill (.nested (.many .map) parts) target v)
    (hnone : target.named? = none) :
    v = if mode.empties target then .map (Part.objectType parts) [] else target :=
  h.absent (congrArg (Option.map _) hnone)

/-- A collection is built of the completions of what the target holds. -/
theorem Completes.exists_results {collection : Collection}
    (h : Completes mode Fill (.nested (.many collection) parts) target v)
    {children : List (PathStep × Value)} (hchildren : collection.children? target = some children) :
    ∃ results : List (PathStep × Value),
      List.Forall₂ (fun child result => child.1 = result.1 ∧
        CompletesObject mode Fill parts child.2 result.2) children results ∧
      v = collection.build (Part.objectType parts) results := by
  rw [Completes, hchildren] at h
  exact h

/-- A list completes a list or a set, element by element. -/
theorem Completes.list (h : Completes mode Fill (.nested (.many .list) parts) target v)
    {elements : List Value} (helements : target.elements? = some elements) :
    ∃ vs, List.Forall₂ (CompletesObject mode Fill parts) elements vs ∧
      v = .list (Part.objectType parts) vs := by
  obtain ⟨results, hresults, rfl⟩ := h.exists_results (congrArg (Option.map (indexed 0)) helements)
  exact ⟨_, forall₂_of_indexed hresults, rfl⟩

/-- A set completes a list or a set: of equal completions it has the first. -/
theorem Completes.set (h : Completes mode Fill (.nested (.many .set) parts) target v)
    {elements : List Value} (helements : target.elements? = some elements) :
    ∃ vs, List.Forall₂ (CompletesObject mode Fill parts) elements vs ∧
      v = .setOf (Part.objectType parts) vs := by
  obtain ⟨results, hresults, rfl⟩ := h.exists_results (congrArg (Option.map (indexed 0)) helements)
  exact ⟨_, forall₂_of_indexed hresults, rfl⟩

/-- A map completes a map or an object, entry by entry. -/
theorem Completes.map (h : Completes mode Fill (.nested (.many .map) parts) target v)
    {entries : List (String × Value)} (hentries : target.named? = some entries) :
    ∃ vs, Aligned (fun _ => CompletesObject mode Fill parts) entries vs ∧
      v = .mapOf (Part.objectType parts) vs := by
  obtain ⟨results, hresults, rfl⟩ := h.exists_results (congrArg (Option.map _) hentries)
  obtain ⟨vs, hvs, hbuild⟩ := aligned_of_keyed hresults
  exact ⟨vs, hvs, hbuild _⟩

end Collections

end Synthesis

end ProviderMock
