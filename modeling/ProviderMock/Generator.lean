import ProviderMock.Value
import ProviderMock.Generator.Stream
import ProviderMock.Generator.Settings

/-!
# Generators

A generator makes known values of any type. It is a key, a position in the stream of the key, and
the length of the strings it makes; strings are taken off the stream one after the other.
-/

namespace ProviderMock

/-- A source of generated values. -/
structure Generator where
  key : StreamKey
  /-- how much of the stream is used up -/
  position : Nat
  stringLength : Nat
  deriving DecidableEq, Repr

namespace Generator

/-- The generator that settings describe, with the key to use if they have no seed. Strings have one
character at least. -/
def ofSettings (entropy : StreamKey) (settings : Settings) : Generator :=
  ⟨(settings.seed.map StreamKey.ofSeed).getD entropy, 0, max settings.stringLength 1⟩

/-- The generator of a seed. -/
def seeded (seed : UInt64) : Generator :=
  ⟨StreamKey.ofSeed seed, 0, Settings.standard.stringLength⟩

/-- A random string and the generator after it. -/
def randomString (g : Generator) : String × Generator :=
  -- the string is all that is used up of the stream
  let taken := g.key.take g.stringLength g.position
  (String.ofList taken.1, { g with position := taken.2 })

mutual

/-- A known value of a type, and the generator after it. Strings are random, numbers zero and bools
false; collections are empty, objects are made attribute by attribute, and nothing is known of the
dynamic type, so its value is null. -/
def generate : Ty → Generator → Value × Generator
  | .string, g => (.string g.randomString.1, g.randomString.2)
  | .number, g => (.number (Double.zero false), g)
  | .bool, g => (.bool false, g)
  | .dynamic, g => (.null .dynamic, g)
  | .list element, g => (.list element [], g)
  | .set element, g => (.set element [], g)
  | .map element, g => (.map element [], g)
  | .object attributes, g =>
    let made := generateFields attributes g
    (.object made.1, made.2)
termination_by structural t => t

/-- A value for each attribute in order, and the generator after them. -/
def generateFields : List (String × Ty) → Generator → List (String × Value) × Generator
  | [], g => ([], g)
  | (name, t) :: rest, g =>
    let first := generate t g
    let made := generateFields rest first.2
    ((name, first.1) :: made.1, made.2)
termination_by structural ts => ts

end

end Generator

end ProviderMock
