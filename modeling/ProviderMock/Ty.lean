import ProviderMock.Fields

/-!
# Types

The static types of values: three primitives, a type that accepts anything, three kinds of
collection and objects with named attributes.

* **same** — `Ty.same` compares types. Object types are the same when they have the same attributes
  with the same types, in whatever order; everything else is compared part by part.
* **friendly names** — `Ty.friendlyName` is what messages call a type. It names the elements of a
  collection but not the attributes of an object.
-/

namespace ProviderMock

/-- The static type of a value. Attributes of an object type keep their order. -/
inductive Ty where
  | string
  | number
  | bool
  /-- accepts a value of any type -/
  | dynamic
  | list (element : Ty)
  | set (element : Ty)
  | map (element : Ty)
  | object (attributes : List (String × Ty))
  deriving Inhabited, Repr

namespace Ty

/-- Induction on types: a property of every type if it passes from elements to collections and from
attributes to objects. -/
@[elab_as_elim]
theorem induction {P : Ty → Prop} (string : P .string) (number : P .number) (bool : P .bool)
    (dynamic : P .dynamic) (list : ∀ e, P e → P (.list e)) (set : ∀ e, P e → P (.set e))
    (map : ∀ e, P e → P (.map e))
    (object : ∀ attributes, (∀ a ∈ attributes, P a.2) → P (.object attributes)) (t : Ty) : P t :=
  @Ty.rec P (fun attributes => ∀ a ∈ attributes, P a.2) (fun a => P a.2)
    string number bool dynamic list set map object
    (fun _ h => absurd h List.not_mem_nil)
    (fun _ _ hfirst hrest => List.forall_mem_cons.mpr ⟨hfirst, hrest⟩)
    (fun _ _ h => h) t

/-! ## Sameness -/

mutual

/-- Whether two types are the same up to the order of attributes. -/
def same : Ty → Ty → Bool
  | .string, .string => true
  | .number, .number => true
  | .bool, .bool => true
  | .dynamic, .dynamic => true
  | .list a, .list b => same a b
  | .set a, .set b => same a b
  | .map a, .map b => same a b
  | .object as, .object bs => as.length == bs.length && sameAttributes as bs
  | _, _ => false
termination_by structural ty => ty

/-- Whether every attribute has a namesake of the same type among others. -/
def sameAttributes : List (String × Ty) → List (String × Ty) → Bool
  | [], _ => true
  | (name, a) :: rest, bs =>
    (match bs.lookup name with
    | some b => same a b
    | none => false) && sameAttributes rest bs
termination_by structural attributes => attributes

end

/-- Whether a type is an object type. -/
def isObject : Ty → Bool
  | .object _ => true
  | _ => false

/-- What messages call a type. -/
def friendlyName : Ty → String
  | .string => "string"
  | .number => "number"
  | .bool => "bool"
  | .dynamic => "dynamic"
  | .list e => "list of " ++ friendlyName e
  | .set e => "set of " ++ friendlyName e
  | .map e => "map of " ++ friendlyName e
  | .object _ => "object"

/-- Sameness of attributes looks for the namesake of each. -/
theorem sameAttributes_eq_all (as bs : List (String × Ty)) :
    sameAttributes as bs = as.all fun a => (bs.lookup a.1).any fun b => a.2.same b := by
  induction as with
  | nil => rfl
  | cons a rest ih =>
    obtain ⟨name, t⟩ := a
    rw [sameAttributes, ih, List.all_cons]
    cases bs.lookup name <;> rfl

/-- An object type from attributes put one after the other. -/
def ofFields (attributes : List (String × Ty)) : Ty := .object (Fields.ofList attributes)

end Ty

end ProviderMock
