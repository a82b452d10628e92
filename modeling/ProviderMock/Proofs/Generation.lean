import ProviderMock.Generator
import ProviderMock.Proofs.Conformance
import ProviderMock.Proofs.Known

/-!
# Generated values

What a generator makes of a type is known and conforms to the type, wherever its stream is. It is
null for the dynamic type alone.
-/

namespace ProviderMock

open Fields (Aligned)

/-- The generated fields are generated one by one. -/
theorem Generator.aligned_generateFields (attributes : List (String × Ty)) (g : Generator) :
    Aligned (fun _ t v => ∃ g', v = (generate t g').1) attributes
      (generateFields attributes g).1 := by
  induction attributes generalizing g with
  | nil => exact .nil
  | cons a rest ih =>
    obtain ⟨name, t⟩ := a
    exact .cons ⟨rfl, g, rfl⟩ (ih _)

/-- What is generated is known. -/
theorem Generator.isWhollyKnown_generate (t : Ty) (g : Generator) :
    (g.generate t).1.isWhollyKnown = true := by
  induction t using Ty.induction generalizing g with
  | object attributes ih =>
    refine Value.isWhollyKnown_object_iff.mpr fun f hf => ?_
    obtain ⟨t, ht, g', hg'⟩ := (Generator.aligned_generateFields attributes g).exists_left hf
    rw [hg']
    exact ih _ ht g'
  | _ => rfl

/-- Of the dynamic type alone a null is generated. -/
theorem Generator.isNull_generate_iff {t : Ty} {g : Generator} :
    (g.generate t).1.isNull = true ↔ t = .dynamic := by
  cases t with
  | dynamic => exact ⟨fun _ => rfl, fun _ => rfl⟩
  | _ => exact ⟨fun h => absurd h Bool.false_ne_true, nofun⟩

/-- What is generated of a type conforms to it. -/
theorem conforms_generate {t : Ty} (ht : t.isWellFormed = true) (g : Generator) :
    Conforms (g.generate t).1 t := by
  induction t using Ty.induction generalizing g with
  | string => exact .string _
  | number => exact .number _
  | bool => exact .bool _
  | dynamic => exact .dynamic _
  | list e _ => exact .list (Ty.same_self ht) fun _ he => absurd he List.not_mem_nil
  | set e _ => exact .set (Ty.same_self ht) fun _ he => absurd he List.not_mem_nil
  | map e _ => exact .map (Ty.same_self ht) fun _ he => absurd he List.not_mem_nil
  | object attributes ih =>
    refine conforms_object_of_aligned
      ((Generator.aligned_generateFields attributes g).imp fun name t v hmem hv => ?_)
    obtain ⟨g', rfl⟩ := hv
    exact ih _ hmem ((Ty.isWellFormed_object_iff.mp ht).2 _ hmem) g'

end ProviderMock
