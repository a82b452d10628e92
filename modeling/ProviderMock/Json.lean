import ProviderMock.Fields
import ProviderMock.Double.Rounding

/-!
# JSON

JSON as a tree. An object that is data is a map: its members ascend by name and no name occurs
twice, which `Json.ofMembers` sees to. A document whose order means something is written from an
object with its members in that order. A number is a whole number of 64 bits, signed or not, or else
a finite double.
-/

namespace ProviderMock

/-- A JSON number. -/
inductive Json.Number where
  /-- a whole number that fits in 64 bits -/
  | int (value : Int) (fits : -0x8000000000000000 ≤ value ∧ value < 0x10000000000000000)
  /-- any other number -/
  | double (value : Double) (finite : value.isFinite = true)
  deriving DecidableEq

/-- A JSON tree. -/
inductive Json where
  | null
  | bool (bool : Bool)
  | number (number : Json.Number)
  | string (text : String)
  | array (items : List Json)
  /-- an object; the members of data ascend by name -/
  | object (members : List (String × Json))
  deriving Inhabited

namespace Json

/-- Induction on JSON trees: a property of every tree if it passes from items and members to the
trees that hold them. -/
@[elab_as_elim]
theorem induction {P : Json → Prop} (null : P .null) (bool : ∀ b, P (.bool b))
    (number : ∀ n, P (.number n)) (string : ∀ s, P (.string s))
    (array : ∀ items, (∀ i ∈ items, P i) → P (.array items))
    (object : ∀ members, (∀ m ∈ members, P m.2) → P (.object members)) (json : Json) : P json :=
  @Json.rec P (fun items => ∀ i ∈ items, P i) (fun members => ∀ m ∈ members, P m.2) (fun m => P m.2)
    null bool number string array object
    (fun _ h => absurd h List.not_mem_nil)
    (fun _ _ hfirst hrest => List.forall_mem_cons.mpr ⟨hfirst, hrest⟩)
    (fun _ h => absurd h List.not_mem_nil)
    (fun _ _ hfirst hrest => List.forall_mem_cons.mpr ⟨hfirst, hrest⟩)
    (fun _ _ h => h) json

/-- The double that a number is read as. -/
def Number.toDouble : Number → Double
  | .int n _ => Double.ofInt n
  | .double x _ => x

/-- An object with members in any order; the last of equal names counts. -/
def ofMembers (members : List (String × Json)) : Json := .object (Entries.ofList members)

/-- The JSON of a natural number: a whole number if it fits in 64 bits, or else a double. -/
def ofNat (n : Nat) : Json :=
  if h : n < 0x10000000000000000 then .number (.int n ⟨by omega, by omega⟩)
  else
    let x := Double.ofInt n
    if h : x.isFinite = true then .number (.double x h) else .null

/-- The JSON of a double: what is not finite has none and becomes null. -/
def ofDouble (x : Double) : Json :=
  if h : x.isFinite = true then .number (.double x h) else .null

end Json

end ProviderMock
