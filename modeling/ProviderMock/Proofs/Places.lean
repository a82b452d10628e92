import ProviderMock.Proofs.Lifecycle
import ProviderMock.Proofs.Reports
import ProviderMock.Proofs.SameTargets

/-!
# Where diagnostics point

The path of a diagnostic is that of a visit: it counts the elements of the target. `Value.at?` is
what it leads to in the result.

* **one step** — `Collection.child?_build`: a collection has each result at its step, as long as
  nothing is left out of it.
* **a whole walk** — `Completes.exists_at`: the path of every visit leads to what completes the
  target of the visit, unless a set on the way holds fewer elements than its target.
* **diagnostics** — `exists_at_of_mem_diagnostics`. Sets are the only exception, and they are one:
  `not_at_of_mem_diagnostics` is a diagnostic at the second element of a set that has one.
-/

namespace ProviderMock

open Value (everywhere_iff isOrdered robust_isOrdered)

/-! ## Places -/

namespace Value

/-- What one step leads to: a field of an object, an element of a list or a set, or an entry of a
map. -/
def child? (v : Value) : PathStep → Option Value
  | .attr name => v.field? name
  | .index i => v.elements?.bind (·[i]?)
  | .key k => v.entries?.bind (·.lookup k)

/-- What a path leads to. -/
def at? : Value → Path → Option Value
  | v, [] => some v
  | v, step :: rest => (v.child? step).bind (·.at? rest)
termination_by structural _ path => path

@[simp] theorem at?_root (v : Value) : v.at? Path.root = some v := rfl

/-- One step further. -/
theorem at?_step (v : Value) (path : Path) (next : PathStep) :
    v.at? (path.step next) = (v.at? path).bind (·.child? next) := by
  rw [Path.step]
  induction path generalizing v with
  | nil => simp [at?, Option.bind_fun_some]
  | cons first rest ih => simp [at?, ih, Option.bind_assoc]

/-- No name occurs twice in a map or an object whose names are in order. -/
theorem distinct_of_isOrdered {v : Value} (h : v.isOrdered = true) {fields : List (String × Value)}
    (hfields : v.named? = some fields) : Fields.Distinct fields := by
  cases v with
  | map t entries =>
    obtain rfl := Option.some.inj hfields
    exact (decide_eq_true_iff.mp (Bool.and_eq_true_iff.mp h).2 : Entries.Ascending _).distinct
  | object fs =>
    obtain rfl := Option.some.inj hfields
    exact decide_eq_true_iff.mp h
  | _ => cases hfields

end Value

/-- A value is at its position. -/
theorem getElem?_of_mem_indexed {values : List Value} {start : Nat} {child : PathStep × Value}
    (h : child ∈ indexed start values) :
    ∃ i, child.1 = .index (start + i) ∧ values[i]? = some child.2 := by
  induction values generalizing start with
  | nil => cases h
  | cons v rest ih =>
    rcases List.mem_cons.mp h with rfl | h
    · exact ⟨0, rfl, rfl⟩
    · obtain ⟨i, hstep, hvalue⟩ := ih h
      exact ⟨i + 1, by rw [hstep, Nat.add_assoc, Nat.add_comm 1 i], hvalue⟩

/-- What has the steps of positions is in the order of its positions. -/
theorem eq_indexed {results : List (PathStep × Value)} {start : Nat} {values : List Value}
    (h : results.map Prod.fst = (indexed start values).map Prod.fst) :
    results = indexed start (results.map Prod.snd) := by
  induction values generalizing start results with
  | nil =>
    obtain rfl := List.map_eq_nil_iff.mp h
    rfl
  | cons v rest ih =>
    cases results with
    | nil => cases h
    | cons result more =>
      obtain ⟨step, w⟩ := result
      obtain ⟨rfl, hmore⟩ : step = .index start ∧ _ := List.cons.inj h
      exact congrArg (_ :: ·) (ih hmore)

/-- What has the steps of entries is made of entries with the same keys. -/
theorem exists_keyed {results : List (PathStep × Value)} {entries : List (String × Value)}
    (h : results.map Prod.fst =
      (entries.map fun entry => (PathStep.key entry.1, entry.2)).map Prod.fst) :
    ∃ ws : List (String × Value), results = ws.map (fun w => (PathStep.key w.1, w.2)) ∧
      Fields.names ws = Fields.names entries := by
  induction entries generalizing results with
  | nil => exact ⟨[], List.map_eq_nil_iff.mp h, rfl⟩
  | cons entry rest ih =>
    cases results with
    | nil => cases h
    | cons result more =>
      obtain ⟨step, w⟩ := result
      obtain ⟨rfl, hmore⟩ : step = .key entry.1 ∧ _ := List.cons.inj h
      obtain ⟨ws, rfl, hnames⟩ := ih hmore
      exact ⟨(entry.1, w) :: ws, rfl, congrArg (entry.1 :: ·) hnames⟩

/-- **A collection has each result at its step**, if they have the steps of a target and, where they
are collected in a set, none is left out. -/
theorem Collection.child?_build {collection : Collection} {target : Value}
    (htarget : target.isOrdered = true) {children results : List (PathStep × Value)}
    (hchildren : collection.children? target = some children)
    (hsteps : results.map Prod.fst = children.map Prod.fst)
    (hkept : collection = .set →
      (Value.distinct (results.map Prod.snd)).length = results.length)
    (t : Ty) {result : PathStep × Value} (hresult : result ∈ results) :
    (collection.build t results).child? result.1 = some result.2 := by
  -- what is at a position of a list is there in any collection of its elements
  have hindexed : ∀ {elements : List Value} {v : Value},
      results.map Prod.fst = (indexed 0 elements).map Prod.fst →
      v.elements? = some (results.map Prod.snd) → v.child? result.1 = some result.2 := by
    intro elements v hsteps helements
    rw [eq_indexed hsteps] at hresult
    obtain ⟨i, hstep, hvalue⟩ := getElem?_of_mem_indexed hresult
    rw [hstep, Nat.zero_add, Value.child?, helements]
    exact hvalue
  cases collection with
  | list =>
    obtain ⟨elements, -, rfl⟩ := Option.map_eq_some_iff.mp hchildren
    exact hindexed hsteps rfl
  | set =>
    obtain ⟨elements, -, rfl⟩ := Option.map_eq_some_iff.mp hchildren
    have hall : Value.distinct (results.map Prod.snd) = results.map Prod.snd :=
      (Value.sublist_distinct _).eq_of_length ((hkept rfl).trans (List.length_map _).symm)
    exact hindexed hsteps (congrArg some hall)
  | map =>
    obtain ⟨entries, hentries, rfl⟩ := Option.map_eq_some_iff.mp hchildren
    obtain ⟨ws, rfl, hnames⟩ := exists_keyed hsteps
    obtain ⟨w, hw, rfl⟩ := List.mem_map.mp hresult
    have hdistinct : Fields.Distinct ws := by
      rw [Fields.Distinct, hnames]
      exact Value.distinct_of_isOrdered htarget hentries
    rw [build_keyed]
    exact (Entries.lookup_ofList hdistinct w.1).trans (Fields.lookup_of_mem hdistinct hw)

/-! ## Visits -/

/-- A visit is no nearer to the root than the field whose walk it belongs to. -/
theorem Part.path_prefix_of_mem_visits {part : Part} {target : Value} {path : Path} {visit : Visit}
    (h : visit ∈ part.visits target path) : path <+: visit.path := by
  induction part using Part.induction generalizing target path with
  | leaf t computed =>
    obtain rfl := List.mem_singleton.mp h
    exact List.prefix_rfl
  | nested nesting parts ih =>
    rcases Part.mem_visits_nested.mp h with rfl | ⟨object, hobject, h⟩
    · exact List.prefix_rfl
    · obtain ⟨part, hpart, h⟩ := Part.mem_visitsFields.mp h
      have hstep : path <+: object.1 := by
        cases nesting with
        | single =>
          obtain rfl := List.mem_singleton.mp hobject
          exact List.prefix_rfl
        | many collection =>
          obtain ⟨child, -, rfl⟩ := List.mem_map.mp hobject
          exact List.prefix_append path [child.1]
      exact hstep.trans ((List.prefix_append object.1 _).trans (ih part hpart h))

/-- What holds all through a target holds all through the objects in it. -/
theorem Nesting.everywhere_of_mem_objects {test : Value → Bool} {nesting : Nesting} {target : Value}
    (htarget : target.everywhere test = true) {path : Path} {object : Path × Value}
    (hobject : object ∈ nesting.objects target path) : object.2.everywhere test = true := by
  cases nesting with
  | single =>
    obtain rfl := List.mem_singleton.mp hobject
    exact htarget
  | many collection =>
    obtain ⟨child, hchild, rfl⟩ := List.mem_map.mp hobject
    cases hchildren : collection.children? target with
    | none =>
      rw [hchildren] at hchild
      exact absurd hchild List.not_mem_nil
    | some children =>
      rw [hchildren] at hchild
      exact (everywhere_iff.mp htarget).2 _ (Collection.mem_parts_of_mem_children hchildren hchild)

/-- Whether a set of nested objects that is visited has as many elements in the result as in the
target. -/
def Visit.keepsElements (result : Value) (visit : Visit) : Bool :=
  match visit.part, visit.target.elements?, (result.at? visit.path).bind (·.elements?) with
  | .nested (.many .set) _, some elements, some kept => kept.length = elements.length
  | _, _, _ => true

/-- Only sets of nested objects can lose elements. -/
theorem Visit.keepsElements_of_ne_set {visit : Visit}
    (h : ∀ parts, visit.part ≠ .nested (.many .set) parts) (result : Value) :
    visit.keepsElements result = true := by
  unfold keepsElements
  split
  · rename_i parts _ _ hpart _ _
    exact absurd hpart (h parts)
  · rfl

theorem Visit.length_of_keepsElements {path : Path} {parts : List (String × Part)}
    {target result : Value}
    (h : keepsElements result ⟨path, .nested (.many .set) parts, target⟩ = true)
    {elements kept : List Value} (helements : target.elements? = some elements) {t : Ty}
    (hat : result.at? path = some (.set t kept)) : kept.length = elements.length := by
  have hset : (Value.set t kept).elements? = some kept := rfl
  simpa only [keepsElements, helements, hat, Option.bind_some, hset, decide_eq_true_iff] using h

namespace Synthesis

variable {mode : Mode} {Fill : Ty → Value → Prop}

/-- The objects that a field holds are completed at their places, unless the field is a set that
lost elements. -/
theorem Completes.exists_object {nesting : Nesting} {parts : List (String × Part)}
    {target v : Value} (h : Completes mode Fill (.nested nesting parts) target v)
    (htarget : target.isOrdered = true) {result : Value} {path : Path}
    (hat : result.at? path = some v)
    (hkept : Visit.keepsElements result ⟨path, .nested nesting parts, target⟩ = true)
    {object : Path × Value} (hobject : object ∈ nesting.objects target path) :
    ∃ w, result.at? object.1 = some w ∧ CompletesObject mode Fill parts object.2 w := by
  cases nesting with
  | single =>
    obtain rfl := List.mem_singleton.mp hobject
    exact ⟨v, hat, h⟩
  | many collection =>
    obtain ⟨child, hchild, rfl⟩ := List.mem_map.mp hobject
    cases hchildren : collection.children? target with
    | none =>
      rw [hchildren] at hchild
      exact absurd hchild List.not_mem_nil
    | some children =>
      rw [hchildren] at hchild
      obtain ⟨results, hresults, rfl⟩ := h.exists_results hchildren
      obtain ⟨made, hmade, hstep, hcompletes⟩ := exists_mem_right hresults hchild
      refine ⟨made.2, ?_, hcompletes⟩
      have hsteps : results.map Prod.fst = children.map Prod.fst :=
        (map_eq_map_of_forall₂ (hresults.imp fun _ _ h => h.1)).symm
      rw [Value.at?_step, hat, Option.bind_some, hstep]
      refine Collection.child?_build htarget hchildren hsteps ?_ _ hmade
      rintro rfl
      obtain ⟨elements, helements, rfl⟩ := Option.map_eq_some_iff.mp hchildren
      have hlength := Visit.length_of_keepsElements hkept helements hat
      rw [hlength, ← hresults.length_eq, ← List.length_map Prod.snd, map_snd_indexed]

/-- The fields of an object are completed at their places. -/
theorem CompletesObject.exists_field {parts : List (String × Part)}
    (hdistinct : Fields.Distinct parts) {target v : Value}
    (h : CompletesObject mode Fill parts target v) {result : Value} {path : Path}
    (hat : result.at? path = some v) {part : String × Part} (hpart : part ∈ parts) :
    ∃ w, result.at? (path.step (.attr part.1)) = some w ∧
      Completes mode Fill part.2 (target.fieldOr part.1 part.2.type) w := by
  obtain ⟨fields, rfl, hfresh, hfields⟩ := h.exists_fields hdistinct
  obtain ⟨⟨_, w⟩, hw, rfl, hcompletes⟩ := exists_mem_right (completesFields_iff.mp hfields) hpart
  refine ⟨w, ?_, hcompletes⟩
  rw [Value.at?_step, hat, Option.bind_some]
  exact Fields.lookup_of_mem hfresh hw

/-- **The path of every visit leads to what completes its target**, if no set on the way lost
elements. -/
theorem Completes.exists_at {part : Part} (hpart : part.Unambiguous) (hwell : part.WellFormed)
    {target v : Value} (h : Completes mode Fill part target v)
    (htarget : target.everywhere isOrdered = true) {result : Value} {path : Path}
    (hat : result.at? path = some v) {visit : Visit} (hvisit : visit ∈ part.visits target path)
    (hkept : ∀ other ∈ part.visits target path, other.path <+: visit.path →
      other.keepsElements result = true) :
    ∃ w, result.at? visit.path = some w ∧ Completes mode Fill visit.part visit.target w := by
  induction part using Part.induction generalizing target v path with
  | leaf t computed =>
    obtain rfl := List.mem_singleton.mp hvisit
    exact ⟨v, hat, h⟩
  | nested nesting parts ih =>
    obtain ⟨hdistinct, hparts⟩ := hpart
    rcases Part.mem_visits_nested.mp hvisit with rfl | ⟨object, hobject, hfields⟩
    · exact ⟨v, hat, h⟩
    · -- from the field to the object, from there to its field, and on from there
      obtain ⟨part, hpart, hfield⟩ := Part.mem_visitsFields.mp hfields
      have hwell := Part.allWellFormed_iff.mp hwell part hpart
      have hhere := hkept ⟨path, .nested nesting parts, target⟩
        (Part.mem_visits_nested.mpr (.inl rfl)) (Part.path_prefix_of_mem_visits hvisit)
      obtain ⟨w, hw, hobject'⟩ :=
        h.exists_object (everywhere_iff.mp htarget).1 hat hhere hobject
      obtain ⟨x, hx, hcompletes⟩ := hobject'.exists_field hdistinct hw hpart
      have hchild : object.2.everywhere isOrdered = true :=
        Nesting.everywhere_of_mem_objects htarget hobject
      refine ih part hpart (Part.allUnambiguous_iff.mp hparts part hpart) hwell hcompletes
        (robust_isOrdered.fieldOr hchild part.1 hwell.type) hx hfield fun other hother hprefix => ?_
      exact hkept other (Part.mem_visits_nested.mpr (.inr ⟨object, hobject,
        Part.mem_visitsFields.mpr ⟨part, hpart, hother⟩⟩)) hprefix

end Synthesis

/-! ## Diagnostics -/

open Synthesis

/-- The path of every visit leads into the result, if no set on the way lost elements. -/
theorem exists_at_of_mem_visits {schema : Block} (hschema : schema.isWellFormed = true)
    (hunambiguous : schema.isUnambiguous = true) {target : Value}
    (htarget : target.isWellFormed = true) {mode : Mode} {r : Replacement} {g : Generator}
    {visit : Visit} (hvisit : visit ∈ schema.visits target)
    (hkept : ∀ other ∈ schema.visits target, other.path <+: visit.path →
      other.keepsElements (synthesize mode schema target r g).value = true) :
    ∃ v, (synthesize mode schema target r g).value.at? visit.path = some v := by
  have hcompletes : Completes mode (fun _ _ => True) schema.root target
      (synthesize mode schema target r g).value :=
    completes_synthesize (Q := fun _ => True) (fun _ _ _ _ _ => trivial)
      (fun _ _ _ _ _ _ _ => trivial) schema target (fun _ _ => trivial) g
  have hroot : schema.root.Unambiguous := Block.unambiguous_parts schema hschema hunambiguous
  have hall : ∀ other ∈ schema.root.visits target Path.root, other.path <+: visit.path →
      other.keepsElements (synthesize mode schema target r g).value = true := by
    intro other hother hprefix
    rcases Part.mem_visits_nested.mp hother with rfl | ⟨object, hobject, hother⟩
    · exact Visit.keepsElements_of_ne_set (fun _ h => by cases h) _
    · obtain rfl := List.mem_singleton.mp hobject
      exact hkept other hother hprefix
  obtain ⟨v, hv, -⟩ := hcompletes.exists_at hroot (Block.wellFormed_parts schema hschema)
    (Value.everywhere_isOrdered target ▸ htarget) rfl (Block.mem_visits_root hvisit) hall
  exact ⟨v, hv⟩

/-- **Every diagnostic points into the result**, if no set on the way lost elements. -/
theorem exists_at_of_mem_diagnostics {schema : Block} (hschema : schema.isWellFormed = true)
    (hunambiguous : schema.isUnambiguous = true) {target : Value}
    (htarget : target.isWellFormed = true) {mode : Mode} {r : Replacement} {g : Generator}
    {d : Diagnostic} (hd : d ∈ (synthesize mode schema target r g).diagnostics)
    (hkept : ∀ visit ∈ schema.visits target, visit.path <+: d.path →
      visit.keepsElements (synthesize mode schema target r g).value = true) :
    ∃ v, (synthesize mode schema target r g).value.at? d.path = some v := by
  rcases mem_usable_or_exists_visit hd with hd | ⟨visit, hvisit, hreport⟩
  · obtain ⟨t, rfl⟩ := exists_of_mem_usable hd
    exact ⟨_, Value.at?_root _⟩
  · rw [Context.path_of_report? hreport] at hkept ⊢
    exact exists_at_of_mem_visits hschema hunambiguous htarget hvisit hkept

/-! ### A cabinet -/

/-- The schema of a cabinet: a set of drawers with their sizes. -/
def cabinet : Block := .mk [] [("drawer", .many .set, .mk [("size", .plain .number true)] [])]

/-- A cabinet with two drawers, of which the second one has no size. -/
def halfCabinet : Value :=
  .object [("drawer", .set (.object [("size", .number)])
    [.object [("size", .number (.zero false))], .object [("size", .null .number)]])]

/-- A size that is no number. -/
def wrongDrawer : Replacement :=
  ⟨some (.object [("drawer", .object [("size", .list .string [])])]), SourceRange.unspecified⟩

/-- While it is planned, the second drawer differs from the first one, and the diagnostic points to
it. -/
theorem exists_at_of_mem_diagnostics_halfCabinet :
    cabinet.isWellFormed = true ∧ cabinet.isUnambiguous = true ∧ halfCabinet.isWellFormed = true ∧
      let done := planResource cabinet halfCabinet wrongDrawer (Generator.seeded 0)
      done.diagnostics.map (·.path) = [[.attr "drawer", .index 1, .attr "size"]] ∧
        (∀ visit ∈ cabinet.visits halfCabinet, visit.keepsElements done.value = true) ∧
        ∀ d ∈ done.diagnostics, ∃ v, done.value.at? d.path = some v := by
  have hkept : ∀ visit ∈ cabinet.visits halfCabinet, visit.keepsElements
      (planResource cabinet halfCabinet wrongDrawer (Generator.seeded 0)).value = true := by
    decide +kernel
  refine ⟨by decide, by decide, by decide, by decide +kernel, hkept, fun d hd => ?_⟩
  exact exists_at_of_mem_diagnostics (by decide) (by decide) (by decide) hd
    fun visit hvisit _ => hkept visit hvisit

/-- When it is read, the second drawer is given the size of the first one. The two are one element
then, and the diagnostic points behind it. -/
theorem not_at_of_mem_diagnostics :
    cabinet.isWellFormed = true ∧ cabinet.isUnambiguous = true ∧ halfCabinet.isWellFormed = true ∧
      let done := readDataSource cabinet halfCabinet wrongDrawer (Generator.seeded 0)
      ∃ d ∈ done.diagnostics, d.path = [.attr "drawer", .index 1, .attr "size"] ∧
        (done.value.at? [.attr "drawer"]).bind (·.elements?) =
          some [.object [("size", .number (.zero false))]] ∧
        done.value.at? d.path = none := by
  refine ⟨by decide, by decide, by decide, ?_⟩
  exact ⟨_, List.mem_singleton_self _, rfl, rfl, rfl⟩

end ProviderMock
