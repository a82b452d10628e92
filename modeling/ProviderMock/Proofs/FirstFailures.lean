import ProviderMock.Proofs.Traversal
import ProviderMock.Proofs.WellFormed

/-!
# First failures

Conversion and reading go down a tree part by part, and stop at the first part that fails. The error
names the place of the failure, and the steps to it were added on the way back.

* **parts** — `Branching` says how a kind of trees branches, and `Branching.parts` what of a tree a
  type wants, in the order in which it is visited.
* **all levels** — `FailsInOrder.exists_culprit`: if every failure is a node's own or that of its
  first part that fails, then the path of a failure leads to a node that fails by itself, and at
  every level all that comes before the path passes. In `FailsInOrder.exists_refused` what fails by
  itself is refused by the type that wants it.
-/

namespace ProviderMock

/-! ## Kinds -/

/-- The kinds of things that types tell apart. Lists are of one kind with sets, and maps with
objects. -/
inductive Kind where
  | string
  | number
  | bool
  /-- elements in a row -/
  | sequence
  /-- parts under names -/
  | record
  deriving DecidableEq, Repr

/-- The kind of thing that a type is for; the dynamic type is for all of them. -/
def Ty.kind? : Ty → Option Kind
  | .string => some .string
  | .number => some .number
  | .bool => some .bool
  | .dynamic => none
  | .list _ => some .sequence
  | .set _ => some .sequence
  | .map _ => some .record
  | .object _ => some .record

/-! ## Parts -/

/-- Steps by distinct names are distinct. -/
theorem nodup_steps {step : String → PathStep} (hstep : Function.Injective step)
    {α : Type} {fields : List (String × α)} (h : Fields.Distinct fields) :
    (fields.map fun field => step field.1).Nodup := by
  have hnames : (Fields.names fields).Nodup := h
  have hsteps := hnames.map hstep
  rw [Fields.names, List.map_map] at hsteps
  exact hsteps

/-- How a kind of trees branches, into elements or under names, and which trees are in order. What
is in order names nothing twice, and its parts are in order too. -/
structure Branching (α : Type) where
  elements : α → List α
  named : α → List (String × α)
  Valid : α → Prop
  valid_of_mem_elements : ∀ {x}, Valid x → ∀ y ∈ elements x, Valid y
  valid_of_mem_named : ∀ {x}, Valid x → ∀ field ∈ named x, Valid field.2
  distinct_named : ∀ {x}, Valid x → Fields.Distinct (named x)

/-- A type that is wanted and what there is for it: nothing, where an attribute is absent. -/
abbrev Wanted (α : Type) := Ty × Option α

namespace Branching

variable {α : Type} (branching : Branching α)

/-- The parts that a type wants of what there is, each at the step to it, in the order in which they
are visited: elements by position, entries by key, and for every attribute what is under its
name. -/
def parts : Wanted α → List (PathStep × Wanted α)
  | (.list e, some x) | (.set e, some x) =>
    (positions 0 (branching.elements x)).map fun part => (part.1, e, some part.2)
  | (.map e, some x) => (branching.named x).map fun entry => (.key entry.1, e, some entry.2)
  | (.object attributes, some x) =>
    attributes.map fun a => (.attr a.1, a.2, (branching.named x).lookup a.1)
  | _ => []

/-- A wanted type is well-formed, and what there is for it is in order. -/
def ValidWanted (node : Wanted α) : Prop :=
  node.1.isWellFormed = true ∧ ∀ x ∈ node.2, branching.Valid x

variable {branching} {node : Wanted α}

/-- The parts that a well-formed type wants of what is in order are wanted at well-formed types, and
what there is for them is in order. -/
theorem valid_of_mem_parts (h : branching.ValidWanted node) :
    ∀ part ∈ branching.parts node, branching.ValidWanted part.2 := by
  obtain ⟨t, _ | x⟩ := node
  · cases t <;> exact nofun
  obtain ⟨ht, hx⟩ := h
  replace hx : branching.Valid x := hx x rfl
  intro part hpart
  cases t with
  | list e | set e =>
    obtain ⟨member, hmember, rfl⟩ := List.mem_map.mp hpart
    refine ⟨ht, fun y hy => ?_⟩
    obtain rfl := Option.some.inj hy
    exact branching.valid_of_mem_elements hx _ (mem_of_mem_positions hmember)
  | map e =>
    obtain ⟨entry, hentry, rfl⟩ := List.mem_map.mp hpart
    refine ⟨ht, fun y hy => ?_⟩
    obtain rfl := Option.some.inj hy
    exact branching.valid_of_mem_named hx entry hentry
  | object attributes =>
    obtain ⟨a, ha, rfl⟩ := List.mem_map.mp hpart
    exact ⟨(Ty.isWellFormed_object_iff.mp ht).2 a ha, fun y hy =>
      branching.valid_of_mem_named hx _ (Fields.mem_of_lookup hy)⟩
  | _ => cases hpart

/-- No two parts are at one step. -/
theorem nodup_parts (h : branching.ValidWanted node) :
    ((branching.parts node).map Prod.fst).Nodup := by
  obtain ⟨t, _ | x⟩ := node
  · cases t <;> exact .nil
  obtain ⟨ht, hx⟩ := h
  cases t with
  | list e | set e =>
    rw [parts, List.map_map]
    exact nodup_positions 0 _
  | map e =>
    rw [parts, List.map_map]
    exact nodup_steps (fun _ _ => PathStep.key.inj) (branching.distinct_named (hx x rfl))
  | object attributes =>
    rw [parts, List.map_map]
    exact nodup_steps (fun _ _ => PathStep.attr.inj) (Ty.isWellFormed_object_iff.mp ht).1
  | _ => exact .nil

end Branching

/-! ## All levels -/

section Descent

variable {N C : Type} (parts : N → List (PathStep × N))

/-- What a path leads to, from part to part. -/
def reach? (node : N) : Path → Option N
  | [] => some node
  | step :: rest => ((parts node).lookup step).bind fun part => reach? part rest
termination_by structural path => path

/-- The parts that are visited before the one at a step. -/
def earlier (node : N) (step : PathStep) : List (PathStep × N) :=
  (parts node).takeWhile fun part => part.1 != step

/-- At every level of a path, the parts that are visited before the one on the path pass. -/
def PassesBefore (Passes : N → Prop) (node : N) (path : Path) : Prop :=
  ∀ above step, Path.step above step <+: path →
    ∃ level, reach? parts node above = some level ∧
      ∀ part ∈ earlier parts level step, Passes part.2

/-- A node fails as its first part does that does not pass, one step further. -/
def FirstPartFails (Passes : N → Prop) (Fails : N → Path → C → Prop) (node : N) (path : Path)
    (cause : C) : Prop :=
  ∃ before step part after rest, parts node = before ++ (step, part) :: after ∧
    (∀ p ∈ before, Passes p.2) ∧ path = step :: rest ∧ Fails part rest cause

/-- Every failure of a node is its own fault, or that of its first part that does not pass. -/
structure FailsInOrder (Valid Passes : N → Prop) (Fails AtFault : N → Path → C → Prop) : Prop where
  valid_of_mem : ∀ {node}, Valid node → ∀ part ∈ parts node, Valid part.2
  nodup : ∀ {node}, Valid node → ((parts node).map Prod.fst).Nodup
  cases : ∀ {node path cause}, Valid node → Fails node path cause →
    AtFault node path cause ∨ FirstPartFails parts Passes Fails node path cause

variable {parts}

/-- Where no step occurs twice, the part at a step is found, and what is before it is earlier. -/
theorem lookup_and_earlier {node : N} (hnodup : ((parts node).map Prod.fst).Nodup)
    {before after : List (PathStep × N)} {step : PathStep} {part : N}
    (h : parts node = before ++ (step, part) :: after) :
    (parts node).lookup step = some part ∧ earlier parts node step = before := by
  rw [h, List.map_append, List.map_cons, List.nodup_append] at hnodup
  have hbefore : ∀ p ∈ before, p.1 ≠ step := fun p hp =>
    hnodup.2.2 p.1 (List.mem_map_of_mem hp) step List.mem_cons_self
  constructor
  · refine List.lookup_eq_some_iff.mpr ⟨before, after, h, fun p hp => ?_⟩
    exact bne_iff_ne.mpr (hbefore p hp).symm
  · rw [earlier, h, List.takeWhile_append_of_pos fun p hp => bne_iff_ne.mpr (hbefore p hp),
      List.takeWhile_cons_of_neg (by simp), List.append_nil]

/-- Going through the parts of a node in order fails as the first part does that fails. -/
theorem firstPartFails_of_mapM {α β ε : Type} {Passes : N → Prop} {Fails : N → Path → C → Prop}
    {xs : List α} {f : α → Except ε β} {e : ε} (h : xs.mapM f = .error e) {node : N}
    {visit : α → PathStep × N} (hparts : parts node = xs.map visit)
    (hpasses : ∀ x b, f x = .ok b → Passes (visit x).2) {path : Path} {cause : C}
    (hfails : ∀ x, f x = .error e →
      ∃ rest, path = (visit x).1 :: rest ∧ Fails (visit x).2 rest cause) :
    FirstPartFails parts Passes Fails node path cause := by
  obtain ⟨before, x, after, rfl, hbefore, hx⟩ := exists_of_mapM_eq_error h
  obtain ⟨rest, hpath, hpart⟩ := hfails x hx
  refine ⟨before.map visit, (visit x).1, (visit x).2, after.map visit, rest, by simp [hparts],
    fun p hp => ?_, hpath, hpart⟩
  obtain ⟨y, hy, rfl⟩ := List.mem_map.mp hp
  obtain ⟨b, hb⟩ := hbefore y hy
  exact hpasses y b hb

/-- **The path of a failure leads to what is at fault for it**, and at every level of the path all
that is visited earlier passes. -/
theorem FailsInOrder.exists_culprit {Valid Passes : N → Prop} {Fails AtFault : N → Path → C → Prop}
    (h : FailsInOrder parts Valid Passes Fails AtFault) {node : N} {path : Path} {cause : C}
    (hnode : Valid node) (hfails : Fails node path cause) :
    ∃ above rest culprit, path = above ++ rest ∧ reach? parts node above = some culprit ∧
      Fails culprit rest cause ∧ AtFault culprit rest cause ∧
      PassesBefore parts Passes node above := by
  -- the path gets shorter with every level
  induction path generalizing node with
  | nil =>
    rcases h.cases hnode hfails with hfault | ⟨_, _, _, _, _, _, _, hpath, _⟩
    · refine ⟨[], [], node, rfl, rfl, hfails, hfault, fun above step hprefix => ?_⟩
      exact absurd (List.prefix_nil.mp hprefix) (by simp [Path.step])
    · cases hpath
  | cons first more ih =>
    rcases h.cases hnode hfails with
      hfault | ⟨before, step, part, after, rest, hparts, hbefore, hpath, hpart⟩
    · refine ⟨[], first :: more, node, rfl, rfl, hfails, hfault, fun above step hprefix => ?_⟩
      exact absurd (List.prefix_nil.mp hprefix) (by simp [Path.step])
    · obtain ⟨rfl, rfl⟩ := List.cons.inj hpath
      obtain ⟨hlookup, hearlier⟩ := lookup_and_earlier (h.nodup hnode) hparts
      have hmem : (first, part) ∈ parts node := hparts ▸ List.mem_append_right _ List.mem_cons_self
      obtain ⟨above, rest, culprit, rfl, hreach, hculprit, hfault, hpasses⟩ :=
        ih (h.valid_of_mem hnode _ hmem) hpart
      refine ⟨first :: above, rest, culprit, rfl, by rw [reach?, hlookup, Option.bind_some, hreach],
        hculprit, hfault, fun higher step hprefix => ?_⟩
      cases higher with
      | nil =>
        obtain ⟨rfl, -⟩ := List.cons_prefix_cons.mp hprefix
        exact ⟨node, rfl, by rwa [hearlier]⟩
      | cons second higher =>
        obtain ⟨rfl, hbelow⟩ := List.cons_prefix_cons.mp hprefix
        obtain ⟨level, hlevel, hall⟩ := hpasses higher step hbelow
        exact ⟨level, by rw [reach?, hlookup, Option.bind_some, hlevel], hall⟩

end Descent

section Refusal

variable {α C : Type}

/-- What there is for a type is refused for what it is itself, not for a part of it. -/
def RefusedThere (Refused : α → Ty → C → Prop) (node : Wanted α) (path : Path) (cause : C) : Prop :=
  path = .root ∧ ∃ x, node.2 = some x ∧ Refused x node.1 cause

/-- Where every failure comes down to a refusal, its path leads to what is refused. -/
theorem FailsInOrder.exists_refused {branching : Branching α} {Valid Passes : Wanted α → Prop}
    {Fails : Wanted α → Path → C → Prop} {Refused : α → Ty → C → Prop}
    (h : FailsInOrder branching.parts Valid Passes Fails (RefusedThere Refused)) {node : Wanted α}
    {path : Path} {cause : C} (hnode : Valid node) (hfails : Fails node path cause) :
    ∃ want part, reach? branching.parts node path = some (want, some part) ∧
      Fails (want, some part) .root cause ∧ Refused part want cause ∧
      PassesBefore branching.parts Passes node path := by
  obtain ⟨above, rest, ⟨want, part?⟩, rfl, hreach, hpart, ⟨rfl, part, rfl, hrefused⟩, hpasses⟩ :=
    h.exists_culprit hnode hfails
  rw [Path.root, List.append_nil]
  exact ⟨want, part, hreach, hpart, hrefused, hpasses⟩

end Refusal

end ProviderMock
