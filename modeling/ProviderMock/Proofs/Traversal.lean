import Mathlib.Data.List.Nodup
import ProviderMock.Path
import ProviderMock.Proofs.Aligned

/-!
# Going through lists

Conversion and reading go through lists member by member, in order, and stop at the first member
that fails.

* **success** — `mapM_eq_ok_iff`: every member gives the result at its place. If the members are
  named and the results keep their names, then they are aligned: `mapM_named_eq_ok_iff`.
* **failure** — `exists_of_mapM_eq_error`: the failure is that of the first member that fails.
* **positions** — `positions` pairs the members with the steps to them.
-/

namespace ProviderMock

open Fields (Aligned)

section Except

variable {ε δ α β : Type}

theorem bind_eq_ok_iff {x : Except ε α} {f : α → Except ε β} {b : β} :
    (x >>= f) = .ok b ↔ ∃ a, x = .ok a ∧ f a = .ok b := by
  cases x <;> simp [bind, Except.bind]

theorem bind_eq_error_iff {x : Except ε α} {f : α → Except ε β} {e : ε} :
    (x >>= f) = .error e ↔ x = .error e ∨ ∃ a, x = .ok a ∧ f a = .error e := by
  cases x <;> simp [bind, Except.bind]

/-- What is computed from a result adds no failure. -/
theorem bind_pure_eq_error_iff {x : Except ε α} {f : α → β} {e : ε} :
    (x >>= fun a => pure (f a)) = .error e ↔ x = .error e := by
  cases x <;> simp [bind, Except.bind, pure, Except.pure]

theorem map_eq_ok_iff {f : α → β} {x : Except ε α} {b : β} :
    x.map f = .ok b ↔ ∃ a, x = .ok a ∧ f a = b := by
  cases x <;> simp [Except.map]

theorem mapError_eq_ok_iff {x : Except ε α} {f : ε → δ} {a : α} :
    x.mapError f = .ok a ↔ x = .ok a := by
  cases x <;> simp [Except.mapError]

theorem mapError_eq_error_iff {x : Except ε α} {f : ε → δ} {e : δ} :
    x.mapError f = .error e ↔ ∃ e', x = .error e' ∧ f e' = e := by
  cases x <;> simp [Except.mapError]

/-! ## Success -/

/-- Going through a list succeeds if every member gives a result. -/
theorem mapM_eq_ok_iff {f : α → Except ε β} {xs : List α} {ys : List β} :
    xs.mapM f = .ok ys ↔ List.Forall₂ (fun x y => f x = .ok y) xs ys := by
  induction xs generalizing ys with
  | nil => cases ys <;> simp [pure, Except.pure]
  | cons x rest ih =>
    simp only [List.mapM_cons, bind_eq_ok_iff, ih]
    constructor
    · rintro ⟨y, hy, ys', hys, h⟩
      obtain rfl := Except.ok.inj h
      exact .cons hy hys
    · rintro (_ | ⟨hy, hys⟩)
      exact ⟨_, hy, _, hys, rfl⟩

/-- If the members are named and the results keep their names, then every name gets its result. -/
theorem mapM_named_eq_ok_iff {f : String × α → Except ε β} {xs : List (String × α)}
    {ys : List (String × β)} :
    (xs.mapM fun x => do
      let b ← f x
      return (x.1, b)) = .ok ys ↔ Aligned (fun name a b => f (name, a) = .ok b) xs ys := by
  have hmember : ∀ x (y : String × β), (do let b ← f x; return (x.1, b)) = Except.ok y ↔
      x.1 = y.1 ∧ f (x.1, x.2) = .ok y.2 := by
    rintro ⟨name, a⟩ ⟨other, b⟩
    cases f (name, a) <;> simp [bind, Except.bind, pure, Except.pure]
  simp only [mapM_eq_ok_iff, hmember]
  rfl

/-! ## Failure -/

/-- Going through a list fails at the first member that fails. -/
theorem exists_of_mapM_eq_error {f : α → Except ε β} {xs : List α} {e : ε}
    (h : xs.mapM f = .error e) :
    ∃ before x after, xs = before ++ x :: after ∧ (∀ y ∈ before, ∃ b, f y = .ok b) ∧
      f x = .error e := by
  induction xs with
  | nil => cases h
  | cons x rest ih =>
    rw [List.mapM_cons, bind_eq_error_iff] at h
    rcases h with h | ⟨b, hb, h⟩
    · exact ⟨[], x, rest, rfl, nofun, h⟩
    · obtain ⟨before, y, after, rfl, hbefore, hy⟩ := ih (bind_pure_eq_error_iff.mp h)
      exact ⟨x :: before, y, after, rfl, List.forall_mem_cons.mpr ⟨⟨b, hb⟩, hbefore⟩, hy⟩

end Except

/-! ## Positions -/

section Positions

variable {α β : Type}

/-- The members of a list with the steps to them, from position `start` on. -/
def positions (start : Nat) (xs : List α) : List (PathStep × α) :=
  (xs.zipIdx start).map fun member => (.index member.2, member.1)

theorem positions_cons (start : Nat) (x : α) (xs : List α) :
    positions start (x :: xs) = (.index start, x) :: positions (start + 1) xs := rfl

theorem map_snd_positions (start : Nat) (xs : List α) : (positions start xs).map Prod.snd = xs := by
  simp [positions, Function.comp_def]

theorem mem_of_mem_positions {start : Nat} {xs : List α} {part : PathStep × α}
    (h : part ∈ positions start xs) : part.2 ∈ xs :=
  map_snd_positions start xs ▸ List.mem_map_of_mem h

/-- What relates members to results does so whatever their positions are. -/
theorem forall₂_positions_iff (R : α → β → Prop) {start : Nat} {xs : List α} {ys : List β} :
    List.Forall₂ (fun part y => R part.2 y) (positions start xs) ys ↔ List.Forall₂ R xs ys := by
  rw [← List.forall₂_map_left_iff, map_snd_positions]

/-- A member has as many before it as its position says. -/
theorem eq_of_positions_eq {start : Nat} {xs : List α} {before after : List (PathStep × α)}
    {step : PathStep} {x : α} (h : positions start xs = before ++ (step, x) :: after) :
    step = .index (start + before.length) := by
  have hmember : (positions start xs)[before.length]? = some (step, x) := by simp [h]
  simp only [positions, List.getElem?_map, List.getElem?_zipIdx, Option.map_map,
    Option.map_eq_some_iff] at hmember
  obtain ⟨y, -, hy⟩ := hmember
  exact (congrArg Prod.fst hy).symm

/-- No two members have one position. -/
theorem nodup_positions (start : Nat) (xs : List α) :
    ((positions start xs).map Prod.fst).Nodup := by
  have hsteps : (positions start xs).map Prod.fst =
      (List.range' start xs.length).map PathStep.index := by
    rw [positions, List.map_map, ← List.zipIdx_map_snd start xs, List.map_map]
    rfl
  rw [hsteps]
  exact List.Nodup.map (fun _ _ => PathStep.index.inj) List.nodup_range'

end Positions

end ProviderMock
