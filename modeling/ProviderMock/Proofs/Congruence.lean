import ProviderMock.Proofs.Completion

/-!
# Walks that come to the same

Two walks over a schema come to the same, in value and in effects, if they do at every leaf: a field
is walked alike for two targets whose fields, or children one by one, are walked alike. Only the
range of the context goes into what is reported of nested replacements, so the modes may differ.
-/

namespace ProviderMock

/-- Two walks over children come to the same if each step does. -/
theorem Walk.each_congr {β : Type} {f g : Value → Path → Walk β}
    {xs ys : List (PathStep × Value)}
    (h : List.Forall₂ (fun x y => x.1 = y.1 ∧ ∀ path, f x.2 path = g y.2 path) xs ys)
    (path : Path) : Walk.each f path xs = Walk.each g path ys := by
  induction h with
  | nil => rfl
  | @cons x y xs ys hxy _ ih =>
    obtain ⟨step, v⟩ := x
    obtain ⟨step', w⟩ := y
    obtain ⟨rfl, hvw⟩ := hxy
    rw [Walk.each, Walk.each, hvw, ih]

/-- Related elements have the same positions. -/
theorem forall₂_indexed {R : Value → Value → Prop} {xs ys : List Value} (h : List.Forall₂ R xs ys)
    (start : Nat) :
    List.Forall₂ (fun x y => x.1 = y.1 ∧ R x.2 y.2) (indexed start xs) (indexed start ys) := by
  induction h generalizing start with
  | nil => exact .nil
  | cons hxy _ ih => exact .cons ⟨rfl, hxy⟩ (ih (start + 1))

namespace Synthesis

open Fields (Aligned)

/-- Aligned entries have the same keys. -/
theorem forall₂_keyed {R : Value → Value → Prop} {xs ys : List (String × Value)}
    (h : Aligned (fun _ => R) xs ys) :
    List.Forall₂ (fun x y => x.1 = y.1 ∧ R x.2 y.2)
      (xs.map fun entry => (PathStep.key entry.1, entry.2))
      (ys.map fun entry => (PathStep.key entry.1, entry.2)) := by
  induction h with
  | nil => exact .nil
  | cons hxy _ ih => exact .cons ⟨congrArg PathStep.key hxy.1, hxy.2⟩ ih

namespace Context

variable {c d : Context} {parts : List (String × Part)} {v w : Value}

/-- What is reported of a nested replacement depends on the range alone. -/
theorem nestedReplacement_congr (hrange : c.range = d.range) :
    c.nestedReplacement = d.nestedReplacement := by
  funext r path
  simp only [nestedReplacement, hrange]

/-- Two walks over fields come to the same if the walks over each field do. -/
theorem fields_congr
    (h : ∀ q ∈ parts, ∀ r path, c.field q.2 (v.fieldOr q.1 q.2.type) r path =
      d.field q.2 (w.fieldOr q.1 q.2.type) r path)
    (r : Option Value) (path : Path) : c.fields parts v r path = d.fields parts w r path := by
  induction parts with
  | nil => rfl
  | cons q rest ih =>
    obtain ⟨name, part⟩ := q
    rw [fields, fields, h _ List.mem_cons_self,
      ih fun q hq => h q (List.mem_cons_of_mem _ hq)]

/-- Two walks over an object come to the same if the walks over each field do. -/
theorem object_congr
    (h : ∀ q ∈ parts, ∀ r path, c.field q.2 (v.fieldOr q.1 q.2.type) r path =
      d.field q.2 (w.fieldOr q.1 q.2.type) r path)
    (r : Option Value) (path : Path) : c.object parts v r path = d.object parts w r path := by
  rw [object, object, fields_congr h]

/-- Two walks over a nested object come to the same if the walks over the object do. -/
theorem field_single_congr (hrange : c.range = d.range)
    (h : ∀ r path, c.object parts v r path = d.object parts w r path) (r : Option Value)
    (path : Path) :
    c.field (.nested .single parts) v r path = d.field (.nested .single parts) w r path := by
  rw [field_single, field_single, nestedReplacement_congr hrange]
  simp only [h]

/-- Two walks over a collection come to the same if the walks over the objects in it do, one by
one. -/
theorem field_many_congr (hrange : c.range = d.range) {collection : Collection}
    {xs ys : List (PathStep × Value)} (hv : collection.children? v = some xs)
    (hw : collection.children? w = some ys)
    (h : List.Forall₂ (fun x y => x.1 = y.1 ∧
      ∀ r path, c.object parts x.2 r path = d.object parts y.2 r path) xs ys)
    (r : Option Value) (path : Path) :
    c.field (.nested (.many collection) parts) v r path =
      d.field (.nested (.many collection) parts) w r path := by
  rw [c.field_of_children parts r path hv, d.field_of_children parts r path hw,
    nestedReplacement_congr hrange]
  have heach : ∀ r, Walk.each (fun child path => c.object parts child r path) path xs =
      Walk.each (fun child path => d.object parts child r path) path ys := fun r =>
    Walk.each_congr (h.imp fun _ _ hxy => ⟨hxy.1, hxy.2 r⟩) path
  simp only [heach]

end Context

end Synthesis

end ProviderMock
