import ProviderMock.Synthesis

/-!
# Data sources and resources

The computed values of mocked data sources and resources: a data source is read, a resource is
planned and then applied. None of the three can fail. Whatever is wrong with the replacement is
reported, and the part it is wrong in is ignored.
-/

namespace ProviderMock

/-- The values that the author of a test sets in place of computed ones. -/
structure Replacement where
  /-- the values, or none at all -/
  value : Option Value
  /-- where they were defined -/
  range : SourceRange

namespace Replacement

/-- No values. -/
def absent : Replacement := ⟨none, SourceRange.unspecified⟩

/-- Whether the values are absent, null or an object. -/
def isValid (r : Replacement) : Bool :=
  match r.value with
  | none => true
  | some v => v.isNull || v.isObject

/-- The object to take values from, if there is one, and what is reported where there should be. -/
def usable (r : Replacement) : Option Value × Diagnostics :=
  match r.value with
  | none => (none, [])
  | some v =>
    if !r.isValid then (none, [.nonObject v.ty])
    else if v.isNull then (none, [])
    else (some v, [])

end Replacement

/-- What a synthesis results in. -/
structure Outcome where
  value : Value
  diagnostics : Diagnostics
  /-- the generator after the synthesis -/
  generator : Generator

/-- Complete a target along a block in a mode. -/
def synthesize (mode : Mode) (schema : Block) (target : Value) (r : Replacement) (g : Generator) :
    Outcome :=
  let context : Synthesis.Context := ⟨mode, r.range⟩
  let done := context.block schema target r.usable.1 Path.root ⟨g, []⟩
  ⟨done.1, Diagnostics.extend r.usable.2 done.2.diagnostics, done.2.generator⟩

/-- Fill the unset computed values of a data source. -/
def readDataSource : Block → Value → Replacement → Generator → Outcome := synthesize .read

/-- Plan a resource: unset computed values are replaced or become unknown. -/
def planResource : Block → Value → Replacement → Generator → Outcome := synthesize .plan

/-- Apply a planned resource: unknown computed values are filled. -/
def applyResource : Block → Value → Replacement → Generator → Outcome := synthesize .apply

end ProviderMock
