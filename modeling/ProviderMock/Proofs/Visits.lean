import ProviderMock.Proofs.Completion
import ProviderMock.Proofs.WellFormed

/-!
# The visits of a walk

A walk over a schema comes to one field of the target after the other. Which fields it comes to, and
in what order, is up to the schema and the target alone; a replacement and a generator decide what
happens there. So a walk has a list of *visits* that can be told beforehand, and all its effects are
the effects of its visits, one after the other.

* **positions** — the *position* of a visit is the chain of names that leads to it, without indexes
  and keys. `Block.part?` is what the schema declares at a position, and
  `Block.part?_of_mem_visits` says that every visit is to the part at its position.
* **replacements** — `Path.partOf` is what a replacement holds at the position of a path: names are
  followed through objects (`Value.follow?`).
* **effects** — `Context.after` is the progress after a visit. `Context.progress_field` and
  `Context.progress_block`: a walk makes the progress of its visits.
-/

namespace ProviderMock

/-! ## Positions -/

/-- What a chain of names leads to, from object to object. -/
def Value.follow? : Value → List String → Option Value
  | v, [] => some v
  | v, name :: names => (v.field? name).bind (·.follow? names)
termination_by structural _ names => names

/-- One name further. -/
theorem Value.follow?_concat (v : Value) (names : List String) (name : String) :
    v.follow? (names ++ [name]) = (v.follow? names).bind (·.field? name) := by
  induction names generalizing v with
  | nil => simp [follow?, Option.bind_fun_some]
  | cons first rest ih => simp [follow?, Option.bind_assoc, ih]

/-- What passes from objects to their fields passes to all that chains of names lead to. -/
theorem Value.of_follow? {P : Value → Prop} (hP : ∀ x name y, P x → x.field? name = some y → P y)
    {v w : Value} (hv : P v) {names : List String} (hw : v.follow? names = some w) : P w := by
  induction names generalizing v with
  | nil =>
    obtain rfl := Option.some.inj hw
    exact hv
  | cons name rest ih =>
    obtain ⟨x, hx, hrest⟩ := Option.bind_eq_some_iff.mp hw
    exact ih (hP v name x hv hx) hrest

/-- What has no object type has no fields. -/
theorem Value.field?_of_not_isObject {v : Value} (h : v.isObject = false) (name : String) :
    v.field? name = none := by
  cases v with
  | object fields => cases h
  | _ => rfl

/-- A null has no fields. -/
theorem Value.field?_of_isNull {v : Value} (h : v.isNull = true) (name : String) :
    v.field? name = none := by
  cases v with
  | null t => rfl
  | _ => cases h

/-- A null, and what has no object type, is of no use for fields. -/
theorem Value.bind_field?_filter (r : Option Value) (name : String) :
    (r.filter fun x => !x.isNull && x.isObject).bind (·.field? name) = r.bind (·.field? name) := by
  cases r with
  | none => rfl
  | some x =>
    cases hnull : x.isNull with
    | true => simp [Option.filter, hnull, field?_of_isNull hnull]
    | false =>
      cases hobject : x.isObject with
      | true => simp [Option.filter, hnull, hobject]
      | false => simp [Option.filter, hobject, field?_of_not_isObject hobject]

/-- What is held for the fields decides what is held for everything further on. -/
theorem Value.bind_follow?_congr {r held : Option Value}
    (h : ∀ name, r.bind (·.field? name) = held.bind (·.field? name)) {names : List String}
    (hnames : names ≠ []) : r.bind (·.follow? names) = held.bind (·.follow? names) := by
  cases names with
  | nil => exact absurd rfl hnames
  | cons name rest =>
    simp only [follow?, ← Option.bind_assoc, h name]

namespace Path

@[simp] theorem attributeNames_attr (path : Path) (name : String) :
    (path.step (.attr name)).attributeNames = path.attributeNames ++ [name] := by
  simp [attributeNames, step]

@[simp] theorem attributeNames_index (path : Path) (i : Nat) :
    (path.step (.index i)).attributeNames = path.attributeNames := by
  simp [attributeNames, step]

@[simp] theorem attributeNames_key (path : Path) (k : String) :
    (path.step (.key k)).attributeNames = path.attributeNames := by
  simp [attributeNames, step]

/-- What a replacement holds for a path: it knows no indexes and no keys. -/
def partOf (path : Path) (r : Option Value) : Option Value := r.bind (·.follow? path.attributeNames)

@[simp] theorem partOf_root (r : Option Value) : root.partOf r = r := Option.bind_fun_some r

/-- What a replacement holds for a field is the field of what it holds for the object. -/
theorem partOf_attr (path : Path) (name : String) (r : Option Value) :
    (path.step (.attr name)).partOf r = (path.partOf r).bind (·.field? name) := by
  simp only [partOf, attributeNames_attr, Value.follow?_concat, Option.bind_assoc]

/-- What passes from objects to their fields passes from a replacement to what it holds for a
path. -/
theorem of_mem_partOf {P : Value → Prop} (hP : ∀ x name y, P x → x.field? name = some y → P y)
    {r : Option Value} (hr : ∀ x ∈ r, P x) {path : Path} : ∀ x ∈ path.partOf r, P x := by
  intro x hx
  obtain ⟨y, hy, hyx⟩ := Option.bind_eq_some_iff.mp hx
  exact Value.of_follow? hP (hr y hy) hyx

end Path

/-- Elements under their positions, keys and indexes alike, have no names of their own. -/
theorem Collection.attributeNames_child {collection : Collection} {target : Value}
    {children : List (PathStep × Value)} (h : collection.children? target = some children)
    (path : Path) : ∀ child ∈ children,
      (path.step child.1).attributeNames = path.attributeNames := by
  intro child hchild
  cases collection with
  | list | set =>
    obtain ⟨elements, -, rfl⟩ := Option.map_eq_some_iff.mp h
    obtain ⟨i, hi, -⟩ := exists_index_of_mem_indexed hchild
    rw [hi, path.attributeNames_index]
  | map =>
    obtain ⟨entries, -, rfl⟩ := Option.map_eq_some_iff.mp h
    obtain ⟨entry, -, rfl⟩ := List.mem_map.mp hchild
    exact path.attributeNames_key entry.1

/-- The targets of the objects that a field holds, each with the path to it. -/
def Nesting.objects (nesting : Nesting) (target : Value) (path : Path) : List (Path × Value) :=
  match nesting with
  | .single => [(path, target)]
  | .many collection =>
    ((collection.children? target).getD []).map fun child => (path.step child.1, child.2)

/-- The objects that a field holds have the position of the field. -/
theorem Nesting.attributeNames_objects (nesting : Nesting) (target : Value) (path : Path) :
    ∀ object ∈ nesting.objects target path, object.1.attributeNames = path.attributeNames := by
  intro object hobject
  cases nesting with
  | single =>
    obtain rfl := List.mem_singleton.mp hobject
    rfl
  | many collection =>
    obtain ⟨child, hchild, rfl⟩ := List.mem_map.mp hobject
    cases hchildren : collection.children? target with
    | none =>
      rw [hchildren] at hchild
      exact absurd hchild List.not_mem_nil
    | some children =>
      rw [hchildren] at hchild
      exact Collection.attributeNames_child hchildren path child hchild

/-- What is declared at a position: a chain of names leads from objects to their fields. -/
def Part.part? : Part → List String → Option Part
  | part, [] => some part
  | .leaf _ _, _ :: _ => none
  | .nested _ parts, name :: names => (parts.lookup name).bind (·.part? names)
termination_by structural _ names => names

/-- A block as one field: a single object with the parts of the block. -/
def Block.root (b : Block) : Part := .nested .single b.parts

/-- What a block declares at a position. -/
def Block.part? (b : Block) (position : List String) : Option Part := b.root.part? position

/-- A block as a whole is no leaf. -/
theorem Block.ne_nil_of_leaf {b : Block} {position : List String} {t : Ty} {computed : Bool}
    (h : b.part? position = some (.leaf t computed)) : position ≠ [] := by
  rintro rfl
  cases h

/-! ## Visits -/

/-- A field that a walk comes to: the path to it, what is declared there, and the target that the
walk finds. -/
structure Visit where
  path : Path
  part : Part
  target : Value

/-- The names that lead to a visit. -/
def Visit.position (visit : Visit) : List String := visit.path.attributeNames

mutual

/-- The visits of a walk over a field in order: the field itself, and then the fields of the objects
that it holds, object by object. -/
def Part.visits : Part → Value → Path → List Visit
  | .leaf t computed, target, path => [⟨path, .leaf t computed, target⟩]
  | .nested nesting parts, target, path =>
    ⟨path, .nested nesting parts, target⟩ ::
      (nesting.objects target path).flatMap fun object =>
        Part.visitsFields parts object.2 object.1
termination_by structural p => p

/-- The visits of a walk over the fields of an object, in declaration order. -/
def Part.visitsFields : List (String × Part) → Value → Path → List Visit
  | [], _, _ => []
  | (name, part) :: rest, target, path =>
    part.visits (target.fieldOr name part.type) (path.step (.attr name)) ++
      Part.visitsFields rest target path
termination_by structural ps => ps

end

/-- The visits of a walk over a target along a block. The object as a whole is no field. -/
def Block.visits (b : Block) (target : Value) : List Visit :=
  Part.visitsFields b.parts target Path.root

/-- The visits to the fields of an object are those to each field. -/
theorem Part.mem_visitsFields {parts : List (String × Part)} {target : Value} {path : Path}
    {visit : Visit} :
    visit ∈ visitsFields parts target path ↔ ∃ part ∈ parts,
      visit ∈ part.2.visits (target.fieldOr part.1 part.2.type) (path.step (.attr part.1)) := by
  induction parts with
  | nil => simp [visitsFields]
  | cons part rest ih => simp [visitsFields, ih]

/-- A walk over nested objects visits the field that holds them, and then their fields. -/
theorem Part.mem_visits_nested {nesting : Nesting} {parts : List (String × Part)} {target : Value}
    {path : Path} {visit : Visit} :
    visit ∈ (Part.nested nesting parts).visits target path ↔
      visit = ⟨path, .nested nesting parts, target⟩ ∨ ∃ object ∈ nesting.objects target path,
        visit ∈ visitsFields parts object.2 object.1 := by
  rw [visits, List.mem_cons, List.mem_flatMap]

/-- A walk along a block is one over a field, without the visit to the field itself. -/
theorem Block.mem_visits_root {schema : Block} {target : Value} {visit : Visit}
    (h : visit ∈ schema.visits target) : visit ∈ schema.root.visits target Path.root :=
  Part.mem_visits_nested.mpr (.inr ⟨(Path.root, target), List.mem_singleton_self _, h⟩)

/-- **Every visit is to the part at its position**, if no name stands for two fields: what is
declared at the position of the walk leads on to what is declared at the visit. -/
theorem Part.part?_of_mem_visits {root part : Part} (hpart : part.Unambiguous) {target : Value}
    {path : Path} {visit : Visit} (h : visit ∈ part.visits target path)
    (hroot : ∀ names, root.part? (path.attributeNames ++ names) = part.part? names) :
    root.part? visit.position = some visit.part := by
  induction part using Part.induction generalizing target path with
  | leaf t computed =>
    obtain rfl := List.mem_singleton.mp h
    simpa [Part.part?, Visit.position] using hroot []
  | nested nesting parts ih =>
    obtain ⟨hdistinct, hparts⟩ := hpart
    rw [Part.allUnambiguous_iff] at hparts
    rcases Part.mem_visits_nested.mp h with rfl | ⟨object, hobject, h⟩
    · simpa [Part.part?, Visit.position] using hroot []
    · obtain ⟨⟨name, q⟩, hq, h⟩ := Part.mem_visitsFields.mp h
      refine ih _ hq (hparts _ hq) h fun names => ?_
      rw [Path.attributeNames_attr, Nesting.attributeNames_objects nesting target path _ hobject,
        List.append_assoc, hroot]
      simp [Part.part?, Fields.lookup_of_mem hdistinct hq]

/-- Every visit of a walk along a block is to the part at its position. -/
theorem Block.part?_of_mem_visits {schema : Block} (hschema : schema.isWellFormed = true)
    (hunambiguous : schema.isUnambiguous = true) {target : Value} {visit : Visit}
    (h : visit ∈ schema.visits target) : schema.part? visit.position = some visit.part := by
  have hroot : schema.root.Unambiguous := Block.unambiguous_parts schema hschema hunambiguous
  exact Part.part?_of_mem_visits hroot (Block.mem_visits_root h) fun _ => rfl

/-! ## Effects -/

namespace Synthesis

namespace Context

variable (context : Context)

/-- The progress after a visit of a walk with a replacement. -/
def after (r : Option Value) (p : Progress) (visit : Visit) : Progress :=
  match visit.part with
  | .leaf t computed =>
    if computed then (context.leaf t visit.target (visit.path.partOf r) visit.path p).2 else p
  | .nested _ _ => (context.nestedReplacement (visit.path.partOf r) visit.path p).2

/-- What nested objects are given of a replacement: what has an object type and is not null. -/
theorem value_nestedReplacement (r : Option Value) (path : Path) (p : Progress) :
    (context.nestedReplacement r path p).1 = r.filter fun x => !x.isNull && x.isObject := by
  cases r with
  | none => rfl
  | some x =>
    cases hnull : x.isNull <;> cases hobject : x.isObject <;>
      simp [nestedReplacement, Option.filter, hnull, hobject]

/-- What is reported and then ignored has no fields, so it makes no difference to them. -/
theorem bind_field?_nestedReplacement (r : Option Value) (path : Path) (p : Progress)
    (name : String) :
    (context.nestedReplacement r path p).1.bind (·.field? name) = r.bind (·.field? name) := by
  rw [value_nestedReplacement, Value.bind_field?_filter]

/-- The objects that a field holds share what the replacement holds for them. -/
theorem bind_field?_of_mem_objects {nesting : Nesting} {target : Value} {path : Path}
    {object : Path × Value} (hobject : object ∈ nesting.objects target path) (r : Option Value)
    (p : Progress) (name : String) :
    (context.nestedReplacement (path.partOf r) path p).1.bind (·.field? name) =
      (object.1.step (.attr name)).partOf r := by
  rw [bind_field?_nestedReplacement, Path.partOf_attr, Path.partOf, Path.partOf,
    Nesting.attributeNames_objects nesting target path object hobject]

/-- An object is taken as it is. -/
theorem nestedReplacement_of_object {r : Option Value} (h : ∀ x ∈ r, ∃ fields, x = .object fields)
    (path : Path) : context.nestedReplacement r path = pure r := by
  cases r with
  | none => rfl
  | some x =>
    obtain ⟨fields, rfl⟩ := h x rfl
    rfl

/-- Nothing is drawn for nested objects as such. -/
theorem generator_nestedReplacement (r : Option Value) (path : Path) (p : Progress) :
    (context.nestedReplacement r path p).2.generator = p.generator := by
  unfold nestedReplacement
  split
  · rfl
  · split
    · rfl
    · split <;> rfl

variable {context} {r : Option Value}

/-- A visit that does not find an unset leaf draws nothing. -/
theorem generator_after {visit : Visit}
    (h : ∀ t, visit.part = .leaf t true → context.mode.isUnset visit.target = false)
    (p : Progress) : (context.after r p visit).generator = p.generator := by
  obtain ⟨path, part, target⟩ := visit
  cases part with
  | leaf t computed =>
    cases computed with
    | false => rfl
    | true =>
      show (context.leaf t target (path.partOf r) path p).2.generator = _
      rw [leaf_of_set (h t rfl)]
      rfl
  | nested nesting parts => exact context.generator_nestedReplacement (path.partOf r) path p

/-- A walk over the fields of an object makes the progress of their visits, if the walk over each
field does. -/
theorem progress_fields {parts : List (String × Part)}
    (h : ∀ part ∈ parts, ∀ target path p, (context.field part.2 target (path.partOf r) path p).2 =
      (part.2.visits target path).foldl (context.after r) p)
    (target : Value) {held : Option Value} {path : Path}
    (hheld : ∀ name, held.bind (·.field? name) = (path.step (.attr name)).partOf r)
    (p : Progress) :
    (context.fields parts target held path p).2 =
      (Part.visitsFields parts target path).foldl (context.after r) p := by
  induction parts generalizing p with
  | nil => rfl
  | cons part rest ih =>
    obtain ⟨name, part⟩ := part
    rw [fields, Part.visitsFields, List.foldl_append, ← h _ List.mem_cons_self, ← hheld,
      ← ih fun part hpart => h part (List.mem_cons_of_mem _ hpart)]
    rfl

/-- A walk over children makes the progress of their visits, if the walk over each child does. -/
theorem progress_each {β : Type} {f : Value → Path → Walk β} {path : Path}
    {children : List (PathStep × Value)} {visits : Path × Value → List Visit}
    (h : ∀ child ∈ children, ∀ p, (f child.2 (path.step child.1) p).2 =
      (visits (path.step child.1, child.2)).foldl (context.after r) p)
    (p : Progress) :
    (Walk.each f path children p).2 =
      ((children.map fun child => (path.step child.1, child.2)).flatMap visits).foldl
        (context.after r) p := by
  induction children generalizing p with
  | nil => rfl
  | cons child rest ih =>
    rw [Walk.each, List.map_cons, List.flatMap_cons, List.foldl_append,
      ← h _ List.mem_cons_self, ← ih fun child hchild => h child (List.mem_cons_of_mem _ hchild)]
    rfl

/-- **A walk makes the progress of its visits**, one after the other. -/
theorem progress_field (part : Part) (target : Value) (path : Path) (p : Progress) :
    (context.field part target (path.partOf r) path p).2 =
      (part.visits target path).foldl (context.after r) p := by
  induction part using Part.induction generalizing target path p with
  | leaf t computed => cases computed <;> rfl
  | nested nesting parts ih =>
    rw [Part.visits, List.foldl_cons]
    have hheld : ∀ object ∈ nesting.objects target path, ∀ name,
        (context.nestedReplacement (path.partOf r) path p).1.bind (·.field? name) =
          (object.1.step (.attr name)).partOf r :=
      fun _ hobject => context.bind_field?_of_mem_objects hobject r p
    cases nesting with
    | single =>
      rw [context.field_single]
      simp only [Nesting.objects, List.flatMap_cons, List.flatMap_nil, List.append_nil]
      exact progress_fields ih target (hheld _ List.mem_cons_self) _
    | many collection =>
      cases hchildren : collection.children? target with
      | none =>
        rw [context.field_of_absent parts _ path hchildren, Nesting.objects, hchildren]
        rfl
      | some children =>
        rw [context.field_of_children parts _ path hchildren]
        rw [Nesting.objects, hchildren, Option.getD_some] at hheld ⊢
        refine progress_each (fun child hchild p => ?_) _
        exact progress_fields ih child.2 (hheld _ (List.mem_map_of_mem hchild)) p

/-- A walk over an object makes the progress of the visits to its fields. -/
theorem progress_object (parts : List (String × Part)) (target : Value) {held : Option Value}
    {path : Path}
    (hheld : ∀ name, held.bind (·.field? name) = (path.step (.attr name)).partOf r)
    (p : Progress) :
    (context.object parts target held path p).2 =
      (Part.visitsFields parts target path).foldl (context.after r) p :=
  progress_fields (fun part _ => progress_field part.2) target hheld p

/-- **A walk along a block makes the progress of its visits.** -/
theorem progress_block (schema : Block) (target : Value) (p : Progress) :
    (context.block schema target r Path.root p).2 =
      (schema.visits target).foldl (context.after r) p := by
  refine progress_object schema.parts target (fun name => ?_) p
  rw [Path.partOf_attr, Path.partOf_root]

end Context

end Synthesis

end ProviderMock
