import ProviderMock.Proofs.Broadcast
import ProviderMock.Proofs.Generation
import ProviderMock.Proofs.Pruning

/-!
# No computed leaf is left unset

A synthesis fills what is unset. What it fills a leaf with may be unset again in two cases only: a
read generates a null where the type is dynamic and there is no replacement, and an apply takes
over what is unknown in a replacement.

* **one leaf** — `Context.isUnset_leaf`: these are the two cases.
* **a whole synthesis** — `filled_synthesize`: every computed leaf of every object that is made, in
  whatever collections, is filled as its mode asks for (`Mode.Filled`).
-/

namespace ProviderMock

namespace Value

/-- Everything in a known value is known. -/
theorem isWhollyKnown_of_follow? {v w : Value} (h : v.isWhollyKnown = true) {names : List String}
    (hw : v.follow? names = some w) : w.isWhollyKnown = true :=
  of_follow? (fun _ _ _ hx hy => isWhollyKnown_of_field hx hy) h hw

end Value

namespace Synthesis

/-! ## One leaf -/

namespace Context

variable {context : Context} {t : Ty} {target : Value} {r : Option Value} {path : Path}
  {p : Progress}

/-- What a leaf falls back to is unset in a read of the dynamic type alone. -/
theorem isUnset_fallback (h : context.mode.isUnset (context.fallback t p).1 = true) :
    context.mode = .read ∧ t = .dynamic := by
  obtain ⟨mode, range⟩ := context
  cases mode with
  | read => exact ⟨rfl, Generator.isNull_generate_iff.mp h⟩
  | plan => cases h
  | apply =>
    have hknown := Generator.isWhollyKnown_generate t p.generator
    exact absurd h (Bool.eq_false_iff.mp (Value.isUnknown_of_isWhollyKnown hknown))

/-- **What a leaf is unset after all.** Either it is read, of the dynamic type, and there is nothing
but a null in the replacement; or it is applied, and what is in the replacement converts to it. -/
theorem isUnset_leaf (h : context.mode.isUnset (context.leaf t target r path p).1 = true) :
    (context.mode = .read ∧ t = .dynamic ∧ r.filter (fun x => !x.isNull) = none ∧
        (context.leaf t target r path p).1 = .null .dynamic) ∨
      (context.mode = .apply ∧ ∃ x, r.filter (fun x => !x.isNull) = some x ∧
        x.convert t = .ok (context.leaf t target r path p).1) := by
  cases hunset : context.mode.isUnset target with
  | false =>
    rw [leaf_of_set hunset] at h
    cases hunset.symm.trans h
  | true =>
    cases hr : r.filter (fun x => !x.isNull) with
    | none =>
      rw [leaf_of_none hunset hr] at h ⊢
      obtain ⟨hmode, rfl⟩ := isUnset_fallback h
      refine .inl ⟨hmode, rfl, rfl, ?_⟩
      rw [fallback, hmode]
      rfl
    | some x =>
      cases hx : x.convert t with
      | ok v =>
        rw [leaf_of_ok hunset hr hx] at h ⊢
        -- what converts is not null, so it is not what a read or a plan looks for
        have hnull : v.isNull = false :=
          (Value.isNull_of_convert hx).trans (by simpa using (Option.filter_eq_some_iff.mp hr).2)
        cases hmode : context.mode with
        | read | plan =>
          rw [hmode] at h
          cases hnull.symm.trans h
        | apply => exact .inr ⟨rfl, x, rfl, hx⟩
      | error e =>
        rw [leaf_of_error hunset hr hx] at h
        obtain ⟨-, rfl⟩ := isUnset_fallback (p := ⟨p.generator, _⟩) h
        cases hx

end Context

end Synthesis

/-! ## A whole synthesis -/

/-- What a computed leaf is in the result. A read leaves a null at most where the type is dynamic
and nothing but a null is `held` for the leaf; a plan leaves none; and an apply leaves nothing
unknown, if there is nothing unknown in the replacement `r`. -/
def Mode.Filled (mode : Mode) (t : Ty) (r held : Option Value) (v : Value) : Prop :=
  match mode with
  | .read => v.isNull = true → t = .dynamic ∧ ∀ x ∈ held, x.isNull = true
  | .plan => v.isNull = false
  | .apply => (∀ x ∈ r, x.isWhollyKnown = true) → v.isUnknown = false

open Synthesis

/-- A walk fills a leaf. -/
theorem Synthesis.Context.filled_leaf (context : Context) (t : Ty) (target : Value)
    {r held : Option Value}
    (hheld : (∀ x ∈ r, x.isWhollyKnown = true) → ∀ x ∈ held, x.isWhollyKnown = true)
    (path : Path) (p : Progress) :
    context.mode.Filled t r held (context.leaf t target held path p).1 := by
  have hcases := fun h : context.mode.isUnset (context.leaf t target held path p).1 = true =>
    isUnset_leaf h
  obtain ⟨mode, range⟩ := context
  cases mode with
  | read =>
    intro hnull
    rcases hcases hnull with ⟨-, ht, hnone, -⟩ | ⟨hmode, -⟩
    · refine ⟨ht, fun x hx => ?_⟩
      simpa using Option.filter_eq_none_iff.mp hnone x hx
    · cases hmode
  | plan =>
    refine Bool.eq_false_iff.mpr fun hnull => ?_
    rcases hcases hnull with ⟨hmode, -⟩ | ⟨hmode, -⟩ <;> cases hmode
  | apply =>
    intro hr
    refine Bool.eq_false_iff.mpr fun hunknown => ?_
    rcases hcases hunknown with ⟨hmode, -⟩ | ⟨-, x, hx, hconvert⟩
    · cases hmode
    · have hknown := hheld hr x (Option.filter_eq_some_iff.mp hx).1
      have hfilled := Value.isWhollyKnown_of_convert hconvert hknown
      exact absurd hunknown (Bool.eq_false_iff.mp (Value.isUnknown_of_isWhollyKnown hfilled))

/-- **No computed leaf is left unset.** At the position of a computed leaf, each object that a walk
along a block or a synthesis makes, however many collections it is in, has a value that is filled.
Nothing is assumed of the target. -/
theorem filled_synthesize (schema : Block) (hschema : schema.isWellFormed = true)
    (hunambiguous : schema.isUnambiguous = true) (mode : Mode) (target : Value)
    (position : List String) (t : Ty) (hleaf : schema.part? position = some (.leaf t true)) :
    (∀ (range : SourceRange) (r : Option Value) (path : Path) (p : Progress),
      EachInstance (fun _ v => mode.Filled t r (r.bind (·.follow? position)) v) position schema.root
        target ((⟨mode, range⟩ : Context).block schema target r path p).1) ∧
    ∀ (r : Replacement) (g : Generator),
      EachInstance (fun _ v => mode.Filled t r.value (r.value.bind (·.follow? position)) v) position
        schema.root target (synthesize mode schema target r g).value := by
  have hroot : schema.root.Unambiguous := Block.unambiguous_parts schema hschema hunambiguous
  have hknown : ∀ {r : Option Value}, (∀ x ∈ r, x.isWhollyKnown = true) →
      ∀ x ∈ r.bind (·.follow? position), x.isWhollyKnown = true := by
    intro r hr x hx
    obtain ⟨y, hy, hx⟩ := Option.bind_eq_some_iff.mp hx
    exact Value.isWhollyKnown_of_follow? (hr y hy) hx
  refine ⟨fun range r path p => ?_, fun r g => ?_⟩
  · exact Context.eachInstance_block ⟨mode, range⟩ hroot hleaf
      (fun v path p => Context.filled_leaf ⟨mode, range⟩ t v hknown path p) target path p
  · -- what is unusable as a whole holds nothing for a leaf
    have hheld := Value.bind_follow?_congr r.bind_field?_usable (Block.ne_nil_of_leaf hleaf)
    refine Context.eachInstance_block ⟨mode, r.range⟩ hroot hleaf (fun v path p => ?_) target
      Path.root ⟨g, []⟩
    rw [hheld]
    exact Context.filled_leaf ⟨mode, r.range⟩ t v hknown path p

/-! ### A network -/

/-- The loose network is read with a replacement that is of use for its rules and wrong otherwise:
the serial numbers of its routes are filled all the same. -/
theorem filled_synthesize_wrongNetwork :
    network.isWellFormed = true ∧ network.isUnambiguous = true ∧
      network.part? ["route", "serial"] = some (.leaf .string true) ∧
      EachInstance (fun _ v => Mode.read.Filled .string wrongNetwork.value
          (wrongNetwork.value.bind (·.follow? ["route", "serial"])) v) ["route", "serial"]
        network.root looseNetwork
        (readDataSource network looseNetwork wrongNetwork (Generator.seeded 0)).value :=
  ⟨by decide, by decide, rfl, (filled_synthesize network (by decide) (by decide) .read looseNetwork
    ["route", "serial"] .string rfl).2 wrongNetwork (Generator.seeded 0)⟩

end ProviderMock
