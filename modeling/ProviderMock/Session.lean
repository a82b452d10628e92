import ProviderMock.Synthesis.Outcome

/-!
# Sessions

A session has an environment and one generator that everything in it shares. The shared generator
is made when it is first used, from the settings of the environment as it is then, and stays until
it is replaced or dropped; changes of the environment in between do not reach it.

Where no seed is set the key of the generator comes from entropy, which is passed in by whoever uses
the session.
-/

namespace ProviderMock

/-- An environment and the shared generator, if it is made. -/
structure Session where
  environment : Environment
  shared : Option Generator

namespace Session

/-- An environment, and no generator yet. -/
def start (environment : Environment) : Session := ⟨environment, none⟩

/-- Replace the shared generator. -/
def setGenerator (s : Session) (g : Generator) : Session := { s with shared := some g }

/-- Drop the shared generator. -/
def resetGenerator (s : Session) : Session := { s with shared := none }

/-- Set a variable, or take it away. -/
def setVariable (s : Session) (name : String) (value : Option String) : Session :=
  let others := s.environment.filter fun pair => pair.1 ≠ name
  { s with
    environment :=
      match value with
      | some v => others ++ [(name, v)]
      | none => others }

/-- The shared generator as it is when it is used next. -/
def generator (s : Session) (entropy : StreamKey) : Generator :=
  s.shared.getD (Generator.ofSettings entropy (Settings.read s.environment).1)

/-- Use the shared generator. -/
def withGenerator {α : Type} (s : Session) (entropy : StreamKey)
    (f : Generator → α × Generator) : α × Session :=
  let result := f (s.generator entropy)
  (result.1, s.setGenerator result.2)

/-- Complete a target with the shared generator. -/
def synthesize (s : Session) (entropy : StreamKey) (mode : Mode) (schema : Block) (target : Value)
    (r : Replacement) : Outcome × Session :=
  s.withGenerator entropy fun g =>
    let outcome := ProviderMock.synthesize mode schema target r g
    (outcome, outcome.generator)

end Session

end ProviderMock
