import ProviderMock.Text.Quoted

/-!
# Paths

Where something is inside a value: the steps from the root to it, outermost first. A path has two
texts. `Path.display` shows every step; `Path.replacementDisplay` shows the attribute names alone,
because a replacement is applied to every element of a collection and has no position in it.
-/

namespace ProviderMock

/-- One step from a value into a part of it. -/
inductive PathStep where
  /-- an attribute of an object -/
  | attr (name : String)
  /-- an element of a list or set -/
  | index (index : Nat)
  /-- an entry of a map -/
  | key (key : String)
  deriving DecidableEq, Repr

/-- The steps from the root of a value to a part of it. -/
abbrev Path := List PathStep

namespace Path

/-- The root of a value. -/
def root : Path := []

/-- One step further. -/
def step (path : Path) (next : PathStep) : Path := path ++ [next]

/-- How a step is written after another one. -/
def displayStep : PathStep → String
  | .attr name => "." ++ name
  | .index index => "[" ++ toString index ++ "]"
  | .key key => "[" ++ Text.quote key ++ "]"

/-- The text of a path. An attribute that comes first has no point before it. -/
def display : Path → String
  | [] => ""
  | .attr name :: rest => name ++ String.join (rest.map displayStep)
  | path => String.join (path.map displayStep)

/-- The attribute names on a path, in order. -/
def attributeNames (path : Path) : List String :=
  path.filterMap fun
    | .attr name => some name
    | _ => none

/-- The attribute names on a path with a point between them. -/
def replacementDisplay (path : Path) : String := ".".intercalate path.attributeNames

end Path

end ProviderMock
