import ProviderMock.Generator
import ProviderMock.Proofs.Pruning

/-!
# What a synthesis draws

Random strings are drawn for unset computed leaves that are not filled from the replacement, and for
nothing else. How many there will be can be told from the visits: `Context.draws` counts the strings
of the declared type. What is drawn is used in visiting order, none is drawn in vain and none is
used twice.

* **types** — `Generator.generate_draws`: a generated value has as many strings as its type has
  string leaves, and they are the next ones of the generator.
* **visits** — `Context.fillings` are the unset leaves that a walk visits, with what each is filled
  with. `Context.drawn_fillings`: the strings generated for them are successive random strings.
* **results** — `Assembled` puts a result together from the target and the values of its unset
  leaves, in the order of the visits and before anything is overwritten or collapses.
  `Context.assembles_field`: the result of a walk is put together from its fillings.
-/

namespace ProviderMock

/-! ## Strings of types and values -/

mutual

/-- How many strings there are in a generated value: one for each string type that is reached
through attributes of object types alone. -/
def Ty.stringLeaves : Ty → Nat
  | .string => 1
  | .object attributes => Ty.attributeStringLeaves attributes
  | _ => 0
termination_by structural t => t

/-- How many strings there are in generated attributes. -/
def Ty.attributeStringLeaves : List (String × Ty) → Nat
  | [] => 0
  | (_, t) :: rest => t.stringLeaves + Ty.attributeStringLeaves rest
termination_by structural ts => ts

end

mutual

/-- The strings in a value, in order. -/
def Value.strings : Value → List String
  | .string s => [s]
  | .list _ elements => Value.elementStrings elements
  | .set _ elements => Value.elementStrings elements
  | .map _ entries => Value.fieldStrings entries
  | .object fields => Value.fieldStrings fields
  | _ => []
termination_by structural v => v

/-- The strings in values, in order. -/
def Value.elementStrings : List Value → List String
  | [] => []
  | v :: rest => v.strings ++ Value.elementStrings rest
termination_by structural vs => vs

/-- The strings in the values of fields, in order. -/
def Value.fieldStrings : List (String × Value) → List String
  | [] => []
  | (_, v) :: rest => v.strings ++ Value.fieldStrings rest
termination_by structural fields => fields

end

namespace Generator

/-- Successive random strings, and the generator after them. -/
def randomStrings : Nat → Generator → List String × Generator
  | 0, g => ([], g)
  | n + 1, g =>
    let rest := randomStrings n g.randomString.2
    (g.randomString.1 :: rest.1, rest.2)

/-- Strings drawn in two goes are those drawn at once. -/
theorem randomStrings_add (m n : Nat) (g : Generator) :
    randomStrings (m + n) g = ((randomStrings m g).1 ++ (randomStrings n (randomStrings m g).2).1,
      (randomStrings n (randomStrings m g).2).2) := by
  induction m generalizing g with
  | zero => simp [randomStrings]
  | succ m ih => simp [Nat.succ_add, randomStrings, ih]

/-- Strings use up a word for each of their characters at least. -/
theorem le_position_randomStrings (n : Nat) (g : Generator) :
    g.position + n * g.stringLength ≤ (randomStrings n g).2.position := by
  induction n generalizing g with
  | zero => exact Nat.le_of_eq (by rw [Nat.zero_mul]; rfl)
  | succ n ih =>
    have hfirst : g.position + g.stringLength ≤ g.randomString.2.position :=
      g.key.le_take g.stringLength g.position
    have hrest : g.randomString.2.position + n * g.stringLength ≤
      (randomStrings n g.randomString.2).2.position := ih g.randomString.2
    show g.position + (n + 1) * g.stringLength ≤ (randomStrings n g.randomString.2).2.position
    rw [Nat.succ_mul]
    omega

/-- A generator that is as before has drawn no strings, if these have any characters. -/
theorem eq_zero_of_randomStrings {n : Nat} {g : Generator} (hlength : 0 < g.stringLength)
    (h : (randomStrings n g).2 = g) : n = 0 := by
  have hle := le_position_randomStrings n g
  rw [h] at hle
  have hzero : n * g.stringLength = 0 := by omega
  exact (Nat.mul_eq_zero.mp hzero).resolve_right (Nat.ne_of_gt hlength)

/-- Generated fields draw for one attribute after the other. -/
theorem generateFields_draws {attributes : List (String × Ty)}
    (h : ∀ a ∈ attributes, ∀ g, ((generate a.2 g).1.strings, (generate a.2 g).2) =
      randomStrings a.2.stringLeaves g) (g : Generator) :
    (Value.fieldStrings (generateFields attributes g).1, (generateFields attributes g).2) =
      randomStrings (Ty.attributeStringLeaves attributes) g := by
  induction attributes generalizing g with
  | nil => rfl
  | cons a rest ih =>
    obtain ⟨name, t⟩ := a
    obtain ⟨ht, hrest⟩ := List.forall_mem_cons.mp h
    rw [Ty.attributeStringLeaves, randomStrings_add, ← ht g, ← ih hrest]
    rfl

/-- **A generated value has the next random strings**, as many as its type has string leaves. -/
theorem generate_draws (t : Ty) (g : Generator) :
    ((generate t g).1.strings, (generate t g).2) = randomStrings t.stringLeaves g := by
  induction t using Ty.induction generalizing g with
  | object attributes ih => exact generateFields_draws ih g
  | _ => rfl

end Generator

/-! ## Draws -/

/-- Whether a replacement fills a leaf of a type: it converts, and is not null. -/
def Value.fills (x : Value) (t : Ty) : Bool := !x.isNull && (x.convert t).isOk

theorem Value.fills_iff {x : Value} {t : Ty} :
    x.fills t = true ↔ x.isNull = false ∧ ∃ w, x.convert t = .ok w := by
  rw [fills]
  cases x.convert t <;> simp [Except.isOk, Except.toBool]

/-- Whether a visit is to a computed leaf that is still to be filled. -/
def Visit.isUnset (mode : Mode) (visit : Visit) : Bool :=
  match visit.part with
  | .leaf _ computed => computed && mode.isUnset visit.target
  | .nested _ _ => false

theorem Visit.isUnset_iff {mode : Mode} {visit : Visit} :
    visit.isUnset mode = true ↔
      ∃ t, visit.part = .leaf t true ∧ mode.isUnset visit.target = true := by
  obtain ⟨path, part, target⟩ := visit
  cases part <;> simp [isUnset]

namespace Synthesis

namespace Context

variable (context : Context) (r : Option Value)

/-- Whether a value is generated at a visit: for an unset computed leaf that the replacement does
not fill, unless it is planned. -/
def generates (visit : Visit) : Bool :=
  context.mode != .plan && visit.isUnset context.mode &&
    !(visit.path.partOf r).any (·.fills visit.part.type)

/-- How many strings are drawn at a visit. -/
def draws (visit : Visit) : Nat :=
  if context.generates r visit then visit.part.type.stringLeaves else 0

/-- How many strings are drawn at visits, taken together. -/
def totalDraws : List Visit → Nat
  | [] => 0
  | visit :: rest => context.draws r visit + totalDraws rest

/-- The unset computed leaves among visits, each with what it is filled with. -/
def fillings : List Visit → Progress → List (Visit × Value)
  | [], _ => []
  | visit :: rest, p =>
    let others := fillings rest (context.after r p visit)
    if visit.isUnset context.mode then
      (visit, (context.leaf visit.part.type visit.target (visit.path.partOf r) visit.path p).1)
        :: others
    else others

/-- The strings in those fillings that were generated. -/
def drawn (filled : List (Visit × Value)) : List String :=
  (filled.filter fun f => context.generates r f.1).flatMap fun f => f.2.strings

variable {context r}

theorem fillings_append (visits more : List Visit) (p : Progress) :
    context.fillings r (visits ++ more) p =
      context.fillings r visits p ++
        context.fillings r more (visits.foldl (context.after r) p) := by
  induction visits generalizing p with
  | nil => rfl
  | cons visit rest ih =>
    simp only [List.cons_append, fillings, List.foldl_cons, ih]
    split <;> simp

theorem drawn_append (filled more : List (Visit × Value)) :
    context.drawn r (filled ++ more) = context.drawn r filled ++ context.drawn r more := by
  simp [drawn]

/-- A leaf that the replacement can fill has no effects. -/
theorem leaf_of_fills {t : Ty} {held : Option Value} (h : held.any (·.fills t) = true)
    (target : Value) (path : Path) : ∃ v, context.leaf t target held path = pure v := by
  cases held with
  | none => cases h
  | some x =>
    obtain ⟨hnull, w, hx⟩ := Value.fills_iff.mp h
    exact ⟨_, leaf_of_converts rfl hnull hx target path⟩

/-- An unset leaf that the replacement does not fill falls back, after what is reported of it. -/
theorem leaf_of_not_fills {t : Ty} {target : Value} (hunset : context.mode.isUnset target = true)
    {held : Option Value} (h : held.any (·.fills t) = false) (path : Path) (p : Progress) :
    ∃ q, q.generator = p.generator ∧ context.leaf t target held path p = context.fallback t q := by
  cases hr : held.filter (fun x => !x.isNull) with
  | none => exact ⟨p, rfl, by rw [leaf_of_none hunset hr]⟩
  | some x =>
    cases hx : x.convert t with
    | ok v =>
      obtain ⟨rfl, hnull⟩ := Option.filter_eq_some_iff.mp hr
      have hfills : x.fills t = true := Value.fills_iff.mpr ⟨by simpa using hnull, v, hx⟩
      cases hfills.symm.trans h
    | error e =>
      refine ⟨(Walk.raise (.typeMismatch t path context.range e) p).2, rfl, ?_⟩
      rw [leaf_of_error hunset hr hx]
      rfl

/-- A leaf for which a value is generated has the next strings of the generator. -/
theorem strings_leaf (hmode : context.mode ≠ .plan) {t : Ty} {target : Value}
    (hunset : context.mode.isUnset target = true) {held : Option Value}
    (h : held.any (·.fills t) = false) (path : Path) (p : Progress) :
    ((context.leaf t target held path p).1.strings,
        (context.leaf t target held path p).2.generator) =
      p.generator.randomStrings t.stringLeaves := by
  obtain ⟨q, hq, hleaf⟩ := leaf_of_not_fills hunset h path p
  rw [hleaf, fallback_of_ne_plan hmode, ← hq]
  exact Generator.generate_draws t q.generator

/-- Nothing is drawn for a leaf that is planned, or that the replacement fills. -/
theorem generator_leaf {t : Ty} {held : Option Value}
    (h : context.mode = .plan ∨ held.any (·.fills t) = true) (target : Value) (path : Path)
    (p : Progress) : (context.leaf t target held path p).2.generator = p.generator := by
  cases hfills : held.any (·.fills t) with
  | true =>
    obtain ⟨v, hv⟩ := leaf_of_fills hfills target path
    rw [hv]
    rfl
  | false =>
    have hmode := h.resolve_right (by simp [hfills])
    cases hunset : context.mode.isUnset target with
    | false =>
      rw [leaf_of_set hunset]
      rfl
    | true =>
      obtain ⟨q, hq, hleaf⟩ := leaf_of_not_fills hunset hfills path p
      rw [hleaf, fallback_of_plan hmode]
      exact hq

/-- **The account of a visit**: the strings that are generated are the next ones of the generator,
and nothing else is drawn. -/
theorem drawn_visit (visit : Visit) (p : Progress) :
    (context.drawn r (context.fillings r [visit] p), (context.after r p visit).generator) =
      p.generator.randomStrings (context.draws r visit) := by
  cases hgenerates : context.generates r visit with
  | true =>
    obtain ⟨hpart, hfills⟩ := Bool.and_eq_true_iff.mp hgenerates
    obtain ⟨hmode, hunset⟩ := Bool.and_eq_true_iff.mp hpart
    obtain ⟨t, ht, htarget⟩ := Visit.isUnset_iff.mp hunset
    have hnone : (visit.path.partOf r).any (·.fills t) = false := by
      simpa [ht, Part.type] using hfills
    have hstrings := strings_leaf (bne_iff_ne.mp hmode) htarget hnone visit.path p
    simpa [fillings, hunset, drawn, hgenerates, draws, ht, after, Part.type] using hstrings
  | false =>
    have hdrawn : context.drawn r (context.fillings r [visit] p) = [] := by
      rw [fillings]
      split <;> simp [drawn, hgenerates, fillings]
    have hgenerator : (context.after r p visit).generator = p.generator := by
      cases hunset : visit.isUnset context.mode with
      | false => exact generator_after (fun t ht => by simpa [Visit.isUnset, ht] using hunset) p
      | true =>
        obtain ⟨t, ht, -⟩ := Visit.isUnset_iff.mp hunset
        have hfilled : context.mode = .plan ∨ (visit.path.partOf r).any (·.fills t) = true := by
          refine or_iff_not_imp_left.mpr fun hmode => ?_
          simpa [generates, hmode, hunset, ht, Part.type] using hgenerates
        rw [after, ht]
        exact generator_leaf hfilled visit.target visit.path p
    simp [hdrawn, hgenerator, draws, hgenerates, Generator.randomStrings]

/-- Nothing is drawn at visits together if nothing is drawn at any. -/
theorem totalDraws_eq_zero_iff {visits : List Visit} :
    context.totalDraws r visits = 0 ↔ ∀ visit ∈ visits, context.draws r visit = 0 := by
  induction visits with
  | nil => simp [totalDraws]
  | cons visit rest ih => rw [totalDraws, Nat.add_eq_zero_iff, ih, List.forall_mem_cons]

/-- Nothing is drawn for a plan. -/
theorem totalDraws_of_plan (hmode : context.mode = .plan) (visits : List Visit) :
    context.totalDraws r visits = 0 := by
  induction visits with
  | nil => rfl
  | cons visit rest ih => simp [totalDraws, draws, generates, hmode, ih]

/-- **The account of a walk**: the generated strings are successive random strings, and they are all
that is drawn. -/
theorem drawn_fillings (visits : List Visit) (p : Progress) :
    (context.drawn r (context.fillings r visits p),
        (visits.foldl (context.after r) p).generator) =
      p.generator.randomStrings (context.totalDraws r visits) := by
  induction visits generalizing p with
  | nil => rfl
  | cons visit rest ih =>
    have hvisit : (context.drawn r (context.fillings r [visit] p),
        (context.after r p visit).generator) =
      p.generator.randomStrings (context.draws r visit) := drawn_visit visit p
    have hrest := ih (context.after r p visit)
    rw [totalDraws, Generator.randomStrings_add, ← hvisit, ← hrest, ← List.singleton_append,
      fillings_append, drawn_append]
    rfl

end Context

/-! ## Results -/

mutual

/-- The value `v` is put together from the target of a field and from values for its unset computed
leaves, one after the other in visiting order. -/
def Assembled (mode : Mode) : Part → Value → List Value → Value → Prop
  | .leaf _ computed, target, values, v =>
    if computed && mode.isUnset target then values = [v] else values = [] ∧ v = target
  | .nested .single parts, target, values, v =>
    ∃ fields, AssembledFields mode parts target values fields ∧ v = .ofFields fields
  | .nested (.many collection) parts, target, values, v =>
    match collection.children? target with
    | none => values = [] ∧
      v = if mode.empties target then collection.build (Part.objectType parts) [] else target
    | some children =>
      ∃ (pieces : List (List Value)) (results : List (PathStep × Value)),
        Forall₃ (fun child piece result => child.1 = result.1 ∧
          ∃ fields, AssembledFields mode parts child.2 piece fields ∧ result.2 = .ofFields fields)
          children pieces results ∧
        values = pieces.flatten ∧ v = collection.build (Part.objectType parts) results
termination_by structural p => p

/-- The fields are put together one after the other, in declaration order. -/
def AssembledFields (mode : Mode) :
    List (String × Part) → Value → List Value → List (String × Value) → Prop
  | [], _, values, fields => values = [] ∧ fields = []
  | (name, part) :: rest, target, values, fields =>
    ∃ first more v vs, values = first ++ more ∧ fields = (name, v) :: vs ∧
      Assembled mode part (target.fieldOr name part.type) first v ∧
      AssembledFields mode rest target more vs
termination_by structural ps => ps

end

/-- The object `v` is put together from a target and from values for its unset computed leaves. -/
def AssembledObject (mode : Mode) (parts : List (String × Part)) (target : Value)
    (values : List Value) (v : Value) : Prop :=
  ∃ fields, AssembledFields mode parts target values fields ∧ v = .ofFields fields

namespace Context

/-- A walk over a field puts its result together from its fillings, in visiting order. -/
def Assembles (context : Context) (r : Option Value) (part : Part) : Prop :=
  ∀ target path p, Assembled context.mode part target
    ((context.fillings r (part.visits target path) p).map Prod.snd)
    (context.field part target (path.partOf r) path p).1

variable {context : Context} {r : Option Value}

/-- A walk over the fields of an object puts them together from its fillings, if the walk over each
field does. -/
theorem assembled_fields {parts : List (String × Part)}
    (h : ∀ part ∈ parts, context.Assembles r part.2)
    (target : Value) {held : Option Value} {path : Path}
    (hheld : ∀ name, held.bind (·.field? name) = (path.step (.attr name)).partOf r)
    (p : Progress) :
    AssembledFields context.mode parts target
      ((context.fillings r (Part.visitsFields parts target path) p).map Prod.snd)
      (context.fields parts target held path p).1 := by
  induction parts generalizing p with
  | nil => exact ⟨rfl, rfl⟩
  | cons part rest ih =>
    obtain ⟨name, part⟩ := part
    obtain ⟨hpart, hrest⟩ := List.forall_mem_cons.mp h
    rw [Part.visitsFields, fillings_append, List.map_append, ← progress_field, ← hheld]
    refine ⟨_, _, _, _, rfl, rfl, ?_, ih hrest _⟩
    rw [hheld]
    exact hpart _ _ p

/-- A walk over an object puts it together from the fillings of its fields, if the walk over each
field does. -/
theorem assembled_object {parts : List (String × Part)}
    (h : ∀ part ∈ parts, context.Assembles r part.2)
    (target : Value) {held : Option Value} {path : Path}
    (hheld : ∀ name, held.bind (·.field? name) = (path.step (.attr name)).partOf r)
    (p : Progress) :
    AssembledObject context.mode parts target
      ((context.fillings r (Part.visitsFields parts target path) p).map Prod.snd)
      (context.object parts target held path p).1 :=
  ⟨_, assembled_fields h target hheld p, rfl⟩

/-- A walk over children puts each of them together from its own fillings, if the walk over each
field does. -/
theorem assembled_each {parts : List (String × Part)}
    (h : ∀ part ∈ parts, context.Assembles r part.2)
    {held : Option Value} {path : Path} {children : List (PathStep × Value)}
    (hheld : ∀ child ∈ children, ∀ name,
      held.bind (·.field? name) = ((path.step child.1).step (.attr name)).partOf r)
    (p : Progress) :
    ∃ pieces, Forall₃ (fun child piece result => child.1 = result.1 ∧
        AssembledObject context.mode parts child.2 piece result.2) children pieces
        (Walk.each (fun child path => context.object parts child held path) path children p).1 ∧
      (context.fillings r ((children.map fun child => (path.step child.1, child.2)).flatMap
        fun object => Part.visitsFields parts object.2 object.1) p).map Prod.snd =
        pieces.flatten := by
  induction children generalizing p with
  | nil => exact ⟨[], .nil, rfl⟩
  | cons child rest ih =>
    obtain ⟨hchild, hrest⟩ := List.forall_mem_cons.mp hheld
    obtain ⟨pieces, hpieces, hvalues⟩ :=
      ih hrest (context.object parts child.2 held (path.step child.1) p).2
    refine ⟨_ :: pieces, .cons ⟨rfl, assembled_object h child.2 hchild p⟩ hpieces, ?_⟩
    rw [List.map_cons, List.flatMap_cons, fillings_append, List.map_append,
      ← progress_object parts child.2 hchild p, hvalues]
    rfl

/-- **A walk puts its result together from its fillings.** -/
theorem assembles_field (part : Part) : context.Assembles r part := by
  induction part using Part.induction with
  | leaf t computed =>
    intro target path p
    cases computed with
    | false => exact ⟨rfl, rfl⟩
    | true =>
      cases hunset : context.mode.isUnset target with
      | true => simp [Assembled, Part.visits, fillings, Visit.isUnset, hunset, field, Part.type]
      | false =>
        simp [Assembled, Part.visits, fillings, Visit.isUnset, hunset, field, leaf_of_set hunset]
  | nested nesting parts ih =>
    intro target path p
    have hheld : ∀ object ∈ nesting.objects target path, ∀ name,
        (context.nestedReplacement (path.partOf r) path p).1.bind (·.field? name) =
          (object.1.step (.attr name)).partOf r :=
      fun _ hobject => context.bind_field?_of_mem_objects hobject r p
    cases nesting with
    | single =>
      rw [context.field_single]
      simp only [Part.visits, Nesting.objects, List.flatMap_cons, List.flatMap_nil, List.append_nil]
      exact assembled_object ih target (hheld _ List.mem_cons_self) _
    | many collection =>
      rw [Assembled]
      cases hchildren : collection.children? target with
      | none =>
        rw [context.field_of_absent parts _ path hchildren, Part.visits, Nesting.objects, hchildren]
        exact ⟨rfl, context.absent_eq _ target⟩
      | some children =>
        rw [Nesting.objects, hchildren] at hheld
        obtain ⟨pieces, hpieces, hvalues⟩ := assembled_each ih
          (fun child hchild => hheld _ (List.mem_map_of_mem hchild))
          (context.nestedReplacement (path.partOf r) path p).2
        rw [context.field_of_children parts _ path hchildren, Part.visits, Nesting.objects,
          hchildren]
        exact ⟨pieces, _, hpieces, hvalues, rfl⟩

/-- The account of a walk along a block that starts with a progress and ends with a value and a
generator. -/
structure Accounts (context : Context) (r : Option Value) (schema : Block) (target : Value)
    (p : Progress) (v : Value) (g : Generator) : Prop where
  /-- the value is put together from what the unset leaves are filled with -/
  assembled : AssembledObject context.mode schema.parts target
    ((context.fillings r (schema.visits target) p).map Prod.snd) v
  /-- what is generated of that are successive random strings -/
  drawn : context.drawn r (context.fillings r (schema.visits target) p) =
    (p.generator.randomStrings (context.totalDraws r (schema.visits target))).1
  /-- nothing else is drawn -/
  generator : g = (p.generator.randomStrings (context.totalDraws r (schema.visits target))).2

/-- A walk along a block is accounted for by what a replacement holds for the fields. -/
theorem accounts_block {held : Option Value}
    (hheld : ∀ name, held.bind (·.field? name) = r.bind (·.field? name)) (schema : Block)
    (target : Value) (p : Progress) :
    context.Accounts r schema target p (context.block schema target held Path.root p).1
      (context.block schema target held Path.root p).2.generator := by
  have hroot : ∀ name, held.bind (·.field? name) = (Path.root.step (.attr name)).partOf r := by
    intro name
    rw [hheld, Path.partOf_attr, Path.partOf_root]
  have hdrawn : (context.drawn r (context.fillings r (schema.visits target) p),
      ((schema.visits target).foldl (context.after r) p).generator) =
    p.generator.randomStrings (context.totalDraws r (schema.visits target)) := drawn_fillings _ p
  have hprogress : (context.block schema target held Path.root p).2 =
      (schema.visits target).foldl (context.after r) p :=
    progress_object schema.parts target hroot p
  refine ⟨assembled_object (fun part _ => assembles_field part.2) target hroot p,
    congrArg Prod.fst hdrawn, ?_⟩
  rw [hprogress]
  exact congrArg Prod.snd hdrawn

end Context

end Synthesis

open Synthesis

/-- **Every draw is accounted for.** A walk along a block and a synthesis put their results together
from what the unset leaves are filled with; what is generated for these are successive strings of
the generator, as many as the visits tell, and nothing else is drawn. A plan draws nothing, whatever
there is to plan. -/
theorem accounts_synthesize (schema : Block) (target : Value) :
    (∀ (context : Context) (r : Option Value) (p : Progress),
      context.Accounts r schema target p (context.block schema target r Path.root p).1
        (context.block schema target r Path.root p).2.generator) ∧
    (∀ (mode : Mode) (r : Replacement) (g : Generator),
      (⟨mode, r.range⟩ : Context).Accounts r.value schema target ⟨g, []⟩
        (synthesize mode schema target r g).value (synthesize mode schema target r g).generator) ∧
    ∀ (range : SourceRange) (r : Replacement) (g : Generator),
      (⟨.plan, range⟩ : Context).totalDraws r.value (schema.visits target) = 0 ∧
        (planResource schema target r g).generator = g := by
  have hsynthesize : ∀ (mode : Mode) (r : Replacement) (g : Generator),
      (⟨mode, r.range⟩ : Context).Accounts r.value schema target ⟨g, []⟩
        (synthesize mode schema target r g).value
        (synthesize mode schema target r g).generator :=
    fun mode r g => Context.accounts_block r.bind_field?_usable schema target ⟨g, []⟩
  refine ⟨fun context r p => Context.accounts_block (fun _ => rfl) schema target p, hsynthesize,
    fun range r g => ⟨Context.totalDraws_of_plan rfl (schema.visits target), ?_⟩⟩
  have hplan := (hsynthesize .plan r g).generator
  rw [Context.totalDraws_of_plan rfl] at hplan
  exact hplan

/-- To read the loose network takes a string for its identifier and one for each rule and route that
has no serial number. -/
example : (⟨.read, SourceRange.unspecified⟩ : Context).totalDraws none
    (network.visits looseNetwork) = 5 := by
  decide

/-- With serial numbers for the rules nothing is drawn for these. -/
example : (⟨.read, SourceRange.unspecified⟩ : Context).totalDraws someSerials.value
    (network.visits looseNetwork) = 3 := by
  decide

end ProviderMock
