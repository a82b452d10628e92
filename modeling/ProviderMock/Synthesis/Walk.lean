import ProviderMock.Diagnostics
import ProviderMock.Generator

/-!
# Walks

What happens along the way while a value is synthesized: strings are drawn from a generator and
diagnostics are raised. `Walk` is the monad of these two effects. Its laws hold by definition, and
so do the equations that say what each operation does to the `Progress` it starts from.
-/

namespace ProviderMock

/-- How far a walk has come. -/
structure Progress where
  generator : Generator
  /-- what was raised so far -/
  diagnostics : Diagnostics

/-- A computation that draws from a generator and raises diagnostics. -/
def Walk (α : Type) : Type := Progress → α × Progress

namespace Walk

variable {α β : Type}

/-- A result without effects. -/
protected def pure (a : α) : Walk α := fun p => (a, p)

/-- One walk after another. -/
protected def bind (m : Walk α) (f : α → Walk β) : Walk β := fun p => f (m p).1 (m p).2

instance : Monad Walk where
  pure := Walk.pure
  bind := Walk.bind

@[simp] theorem pure_apply (a : α) (p : Progress) : (pure a : Walk α) p = (a, p) := rfl

@[simp] theorem bind_apply (m : Walk α) (f : α → Walk β) (p : Progress) :
    (m >>= f) p = f (m p).1 (m p).2 := rfl

@[simp] theorem map_apply (f : α → β) (m : Walk α) (p : Progress) :
    (f <$> m) p = (f (m p).1, (m p).2) := rfl

instance : LawfulMonad Walk := LawfulMonad.mk'
  Walk
  (fun _ => rfl)
  (fun _ _ => rfl)
  (fun _ _ _ => rfl)

/-- Raise a diagnostic. -/
def raise (d : Diagnostic) : Walk Unit :=
  fun p => ((), { p with diagnostics := p.diagnostics.push d })

/-- Generate a known value of a type. -/
def generate (t : Ty) : Walk Value :=
  fun p => ((p.generator.generate t).1, { p with generator := (p.generator.generate t).2 })

@[simp] theorem raise_apply (d : Diagnostic) (p : Progress) :
    raise d p = ((), ⟨p.generator, p.diagnostics.push d⟩) := rfl

@[simp] theorem generate_apply (t : Ty) (p : Progress) :
    generate t p = ((p.generator.generate t).1, ⟨(p.generator.generate t).2, p.diagnostics⟩) := rfl

/-- Walk over values in order, each under its step from `path`. -/
def each (f : Value → Path → Walk β) (path : Path) :
    List (PathStep × Value) → Walk (List (PathStep × β))
  | [] => pure []
  | (step, value) :: rest => do
    let b ← f value (path.step step)
    let bs ← each f path rest
    return (step, b) :: bs

end Walk

end ProviderMock
