import ProviderMock.Proofs.Completion
import ProviderMock.Proofs.Gathering

/-!
# Sequences of walks

Blocks may be completed one after the other with the same progress: they draw from one generator,
and what they raise comes into one collection, where repeats are dropped. Even so no walk sees what
was raised before it.

* **one walk** — `Walk.Additive`: a walk does not look at the diagnostics, and adds to them what it
  raises when it starts without any. `Context.additive_field`: the completion of a field is such a
  walk.
* **calls** — `Context.performAll` completes blocks with the same progress, and
  `Context.performAlone` one of them without the diagnostics of the others.
  `Context.performAll_eq_performAlone` compares the two.
-/

namespace ProviderMock

namespace Walk

variable {α β : Type}

/-- A walk that does not look at the diagnostics raised before it, and extends them by those that it
raises when it starts without any. -/
def Additive (m : Walk α) : Prop :=
  ∀ g ds, m ⟨g, ds⟩ =
    ((m ⟨g, []⟩).1, ⟨(m ⟨g, []⟩).2.generator, ds.extend (m ⟨g, []⟩).2.diagnostics⟩)

theorem additive_pure (a : α) : (pure a : Walk α).Additive := fun _ _ => rfl

theorem additive_raise (d : Diagnostic) : (raise d).Additive := fun _ _ => rfl

theorem additive_generate (t : Ty) : (generate t).Additive := fun _ _ => rfl

/-- What two walks raise comes to the same together as one after the other. -/
theorem Additive.bind {m : Walk α} {f : α → Walk β} (hm : m.Additive) (hf : ∀ a, (f a).Additive) :
    (m >>= f).Additive := by
  intro g ds
  simp only [bind_apply]
  rcases hstart : m ⟨g, []⟩ with ⟨a, g', raised⟩
  have hafter : m ⟨g, ds⟩ = (a, ⟨g', ds.extend raised⟩) := by rw [hm g ds, hstart]
  rw [hafter, hf a g' (ds.extend raised), hf a g' raised, Diagnostics.extend_assoc]

theorem additive_each {f : Value → Path → Walk β} (hf : ∀ v path, (f v path).Additive)
    (path : Path) (children : List (PathStep × Value)) : (each f path children).Additive := by
  induction children with
  | nil => exact additive_pure _
  | cons child rest ih => exact (hf _ _).bind fun _ => ih.bind fun _ => additive_pure _

/-- The generator as it is. -/
def currentGenerator : Walk Generator := fun p => (p.generator, p)

theorem additive_currentGenerator : currentGenerator.Additive := fun _ _ => rfl

end Walk

namespace Synthesis

open Walk

/-- Something to complete. -/
structure Call where
  schema : Block
  target : Value
  replacement : Option Value
  /-- where the walk starts -/
  path : Path

namespace Context

variable (context : Context)

/-! ## One walk -/

theorem additive_fallback (t : Ty) : (context.fallback t).Additive := by
  rw [fallback]
  split
  · exact additive_pure _
  · exact additive_generate t

theorem additive_leaf (t : Ty) (target : Value) (r : Option Value) (path : Path) :
    (context.leaf t target r path).Additive := by
  rw [leaf]
  split
  · split
    · exact context.additive_fallback t
    · split
      · exact additive_pure _
      · exact (additive_raise _).bind fun _ => context.additive_fallback t
  · exact additive_pure _

theorem additive_nestedReplacement (r : Option Value) (path : Path) :
    (context.nestedReplacement r path).Additive := by
  unfold nestedReplacement
  split
  · exact additive_pure _
  · split
    · exact additive_pure _
    · split
      · exact additive_pure _
      · exact (additive_raise _).bind fun _ => additive_pure _

/-- A walk over fields is additive if the walk over each field is. -/
theorem additive_fields {parts : List (String × Part)}
    (h : ∀ q ∈ parts, ∀ target r path, (context.field q.2 target r path).Additive)
    (target : Value) (r : Option Value) (path : Path) :
    (context.fields parts target r path).Additive := by
  induction parts with
  | nil => exact additive_pure _
  | cons q rest ih =>
    obtain ⟨name, part⟩ := q
    have hrest := ih fun q hq => h q (List.mem_cons_of_mem _ hq)
    exact (h _ List.mem_cons_self _ _ _).bind fun _ => hrest.bind fun _ => additive_pure _

/-- **The completion of a field does not look at the diagnostics raised before it.** -/
theorem additive_field (part : Part) (target : Value) (r : Option Value) (path : Path) :
    (context.field part target r path).Additive := by
  induction part using Part.induction generalizing target r path with
  | leaf t computed =>
    cases computed with
    | false => exact additive_pure _
    | true => exact context.additive_leaf t target r path
  | nested nesting parts ih =>
    have hobject : ∀ child r path, (context.object parts child r path).Additive :=
      fun child r path => (context.additive_fields ih child r path).bind fun _ => additive_pure _
    have hheld := context.additive_nestedReplacement r path
    cases nesting with
    | single =>
      rw [context.field_single]
      exact hheld.bind fun held => hobject target held path
    | many collection =>
      cases hchildren : collection.children? target with
      | none =>
        rw [context.field_of_absent parts r path hchildren]
        exact hheld.bind fun _ => additive_pure _
      | some children =>
        rw [context.field_of_children parts r path hchildren]
        exact hheld.bind fun held =>
          (additive_each (fun child path => hobject child held path) path children).bind
            fun _ => additive_pure _

/-! ## Calls -/

/-- Complete what a call asks for. -/
def perform (call : Call) : Walk Value :=
  context.block call.schema call.target call.replacement call.path

/-- Complete what all calls ask for, one after the other: the values, and the generator after each
of them. -/
def performAll : List Call → Walk (List (Value × Generator))
  | [] => pure []
  | call :: rest => do
    let v ← context.perform call
    let g ← Walk.currentGenerator
    let others ← performAll rest
    return (v, g) :: others

/-- One call with diagnostics of its own. Its generator is what the calls before it leave. -/
def performAlone (calls : List Call) (g : Generator) (k : Fin calls.length) : Value × Progress :=
  context.perform calls[k] ⟨(context.performAll (calls.take k) ⟨g, []⟩).2.generator, []⟩

theorem additive_perform (call : Call) : (context.perform call).Additive :=
  (context.additive_fields (fun q _ => context.additive_field q.2) _ _ _).bind
    fun _ => additive_pure _

theorem additive_performAll (calls : List Call) : (context.performAll calls).Additive := by
  induction calls with
  | nil => exact additive_pure _
  | cons call rest ih =>
    exact (context.additive_perform call).bind fun _ =>
      additive_currentGenerator.bind fun _ => ih.bind fun _ => additive_pure _

/-- A later call alone is the same call alone among those after the first. -/
theorem performAlone_succ (call : Call) (rest : List Call) (g : Generator)
    (k : Fin rest.length) :
    context.performAlone (call :: rest) g k.succ =
      context.performAlone rest (context.perform call ⟨g, []⟩).2.generator k := by
  rcases hfirst : context.perform call ⟨g, []⟩ with ⟨v, g', raised⟩
  have hbefore : context.performAll ((call :: rest).take k.succ) ⟨g, []⟩ =
      ((v, g') :: (context.performAll (rest.take k) ⟨g', raised⟩).1,
        (context.performAll (rest.take k) ⟨g', raised⟩).2) := by
    show context.performAll (call :: rest.take k) ⟨g, []⟩ = _
    simp only [performAll, bind_apply, pure_apply, hfirst, currentGenerator]
  -- what the first call raised makes no difference to the generator
  rw [performAlone, performAlone, hbefore, context.additive_performAll _ g' raised]
  rfl

/-- **Calls compose.** Whatever was raised before, calls with one progress have the values that each
of them has alone, with diagnostics of its own and with the generator that the calls before it
leave, and they leave the generator as it does. What is raised in the end are the diagnostics from
before, extended by those of each call alone, in order. -/
theorem performAll_eq_performAlone (calls : List Call) (g : Generator) (ds : Diagnostics) :
    (context.performAll calls ⟨g, ds⟩).1 =
        List.ofFn (fun k => ((context.performAlone calls g k).1,
          (context.performAlone calls g k).2.generator)) ∧
      (context.performAll calls ⟨g, ds⟩).2.diagnostics =
        (List.ofFn fun k => (context.performAlone calls g k).2.diagnostics).foldl
          Diagnostics.extend ds := by
  induction calls generalizing g ds with
  | nil => exact ⟨rfl, rfl⟩
  | cons call rest ih =>
    rcases hfirst : context.perform call ⟨g, []⟩ with ⟨v, g', raised⟩
    have hzero : context.performAlone (call :: rest) g 0 = (v, ⟨g', raised⟩) := hfirst
    have hsucc : ∀ k : Fin rest.length, context.performAlone (call :: rest) g k.succ =
        context.performAlone rest g' k := by
      intro k
      rw [performAlone_succ, hfirst]
    have hcall : context.perform call ⟨g, ds⟩ = (v, ⟨g', ds.extend raised⟩) := by
      rw [context.additive_perform call g ds, hfirst]
    obtain ⟨hvalues, hraised⟩ := ih g' (ds.extend raised)
    simp only [performAll, bind_apply, pure_apply, hcall, currentGenerator, hvalues, hraised,
      List.length_cons, List.ofFn_succ, hzero, hsucc, List.foldl_cons]
    exact ⟨trivial, trivial⟩

end Context

end Synthesis

end ProviderMock
