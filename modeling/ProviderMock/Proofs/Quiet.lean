import ProviderMock.Proofs.Completion

/-!
# Walks without effects

A walk is *quiet* when it draws nothing and raises nothing. Planning without a replacement is: what
is unset becomes unknown, and there is nothing that could fail to convert.
-/

namespace ProviderMock

namespace Walk

variable {α β : Type}

/-- A walk that draws nothing and raises nothing. -/
def Quiet (m : Walk α) : Prop := ∀ p, (m p).2 = p

theorem quiet_pure (a : α) : (pure a : Walk α).Quiet := fun _ => rfl

theorem Quiet.bind {m : Walk α} {f : α → Walk β} (hm : m.Quiet) (hf : ∀ a, (f a).Quiet) :
    (m >>= f).Quiet := by
  intro p
  rw [bind_apply, hm p]
  exact hf _ p

theorem quiet_each {f : Value → Path → Walk β} (hf : ∀ v path, (f v path).Quiet) (path : Path)
    (children : List (PathStep × Value)) : (each f path children).Quiet := by
  induction children with
  | nil => exact quiet_pure _
  | cons child rest ih => exact (hf _ _).bind fun _ => ih.bind fun _ => quiet_pure _

end Walk

namespace Synthesis.Context

open Walk

variable {context : Context}

/-- A plan does not generate what it falls back to. -/
theorem quiet_fallback (hmode : context.mode = .plan) (t : Ty) : (context.fallback t).Quiet := by
  rw [fallback_of_plan hmode]
  exact quiet_pure _

/-- Without a replacement a plan has nothing to report of a leaf. -/
theorem quiet_leaf (hmode : context.mode = .plan) (t : Ty) (target : Value) (path : Path) :
    (context.leaf t target none path).Quiet := by
  rw [leaf]
  split
  · exact context.quiet_fallback hmode t
  · exact quiet_pure _

/-- A walk over fields is quiet if the walk over each field is. -/
theorem quiet_fields {parts : List (String × Part)}
    (h : ∀ q ∈ parts, ∀ target path, (context.field q.2 target none path).Quiet) (target : Value)
    (path : Path) : (context.fields parts target none path).Quiet := by
  induction parts with
  | nil => exact quiet_pure _
  | cons q rest ih =>
    obtain ⟨name, part⟩ := q
    have hrest := ih fun q hq => h q (List.mem_cons_of_mem _ hq)
    exact (h _ List.mem_cons_self _ _).bind fun _ => hrest.bind fun _ => quiet_pure _

/-- **Planning a field without a replacement is quiet.** -/
theorem quiet_field (hmode : context.mode = .plan) (part : Part) (target : Value) (path : Path) :
    (context.field part target none path).Quiet := by
  induction part using Part.induction generalizing target path with
  | leaf t computed =>
    cases computed with
    | false => exact quiet_pure _
    | true => exact context.quiet_leaf hmode t target path
  | nested nesting parts ih =>
    have hobject : ∀ child path, (context.object parts child none path).Quiet := fun child path =>
      (quiet_fields ih child path).bind fun _ => quiet_pure _
    -- without a replacement there is none for nested objects either
    have hnone : context.nestedReplacement none path = pure none := rfl
    cases nesting with
    | single =>
      rw [context.field_single, hnone, pure_bind]
      exact hobject target path
    | many collection =>
      cases hchildren : collection.children? target with
      | none =>
        rw [context.field_of_absent parts none path hchildren, hnone, pure_bind]
        exact quiet_pure _
      | some children =>
        rw [context.field_of_children parts none path hchildren, hnone, pure_bind]
        exact (quiet_each hobject path children).bind fun _ => quiet_pure _

end Synthesis.Context

open Synthesis

/-- **Planning without a replacement is quiet.** -/
theorem quiet_plan (schema : Block) (target : Value) (range : SourceRange) (g : Generator) :
    (planResource schema target ⟨none, range⟩ g).diagnostics = [] ∧
      (planResource schema target ⟨none, range⟩ g).generator = g := by
  have hquiet : ((⟨.plan, range⟩ : Context).block schema target none Path.root).Quiet :=
    (Context.quiet_fields (fun q _ => Context.quiet_field rfl q.2) target Path.root).bind
      fun _ => Walk.quiet_pure _
  have hdone := hquiet ⟨g, []⟩
  exact ⟨congrArg (fun p => Diagnostics.extend [] (Progress.diagnostics p)) hdone,
    congrArg Progress.generator hdone⟩

end ProviderMock
