import Mathlib.Data.List.Basic
import ProviderMock.Diagnostics

/-!
# First occurrences

What a list has without repeats: of every member the first occurrence, in order. The standard
library's `List.eraseDupsBy` says so for any relation of repetition, and the lemmas here say what it
keeps. `Diagnostics.extend_nil`: the diagnostics that are collected are the first occurrences of
those that are raised.
-/

namespace ProviderMock

section Lists

variable {α : Type} {R S : α → α → Bool}

/-- Induction along the first occurrences: after the first member come those that do not repeat
it. -/
@[elab_as_elim]
theorem eraseDups_induction (R : α → α → Bool) {P : List α → Prop} (nil : P [])
    (cons : ∀ a rest, P (rest.filter fun b => R b a = false) → P (a :: rest)) :
    ∀ xs : List α, P xs
  | [] => nil
  | a :: rest => cons a rest (eraseDups_induction R nil cons _)
termination_by xs => xs.length
-- a list without the repeats of a member is shorter
decreasing_by exact Nat.lt_succ_of_le (List.length_filter_le _ _)

/-- What is kept keeps its order. -/
theorem sublist_eraseDupsBy (xs : List α) : (xs.eraseDupsBy R).Sublist xs := by
  induction xs using eraseDups_induction R with
  | nil => exact List.Sublist.refl []
  | cons a rest ih =>
    rw [List.eraseDupsBy_cons]
    exact (ih.trans List.filter_sublist).cons_cons a

/-- Nothing that is kept repeats anything before it. -/
theorem pairwise_eraseDupsBy (xs : List α) :
    (xs.eraseDupsBy R).Pairwise fun a b => R b a = false := by
  induction xs using eraseDups_induction R with
  | nil => exact List.Pairwise.nil
  | cons a rest ih =>
    rw [List.eraseDupsBy_cons]
    refine List.pairwise_cons.mpr ⟨fun b hb => ?_, ih⟩
    simpa using (List.mem_filter.mp ((sublist_eraseDupsBy _).subset hb)).2

/-- A list in which nothing repeats anything before it stays as it is. -/
theorem eraseDupsBy_eq_self {xs : List α} (h : xs.Pairwise fun a b => R b a = false) :
    xs.eraseDupsBy R = xs := by
  induction xs with
  | nil => rfl
  | cons a rest ih =>
    obtain ⟨ha, hrest⟩ := List.pairwise_cons.mp h
    have hfilter : rest.filter (fun b => R b a = false) = rest :=
      List.filter_eq_self.mpr fun b hb => by simpa using ha b hb
    rw [List.eraseDupsBy_cons, hfilter, ih hrest]

/-- What is kept depends on nothing but which members repeat which. -/
theorem eraseDupsBy_congr {xs : List α} (h : ∀ a ∈ xs, ∀ b ∈ xs, R a b = S a b) :
    xs.eraseDupsBy R = xs.eraseDupsBy S := by
  induction xs using eraseDups_induction R with
  | nil => rfl
  | cons a rest ih =>
    have hfilter : rest.filter (fun b => R b a = false) = rest.filter (fun b => S b a = false) :=
      List.filter_congr fun b hb => by
        rw [h b (List.mem_cons_of_mem _ hb) a List.mem_cons_self]
    rw [List.eraseDupsBy_cons, List.eraseDupsBy_cons, ← hfilter, ih]
    exact fun b hb c hc => h b (List.mem_cons_of_mem _ (List.mem_filter.mp hb).1) c
      (List.mem_cons_of_mem _ (List.mem_filter.mp hc).1)

end Lists

namespace Diagnostics

/-- Adding diagnostics one after the other adds the first occurrences of those that repeat none of
the ones before. -/
theorem extend_eq_append (ds more : Diagnostics) :
    ds.extend more = ds ++ (more.filter fun d => !ds.any (·.repeats d)).eraseDupsBy
      fun d e => e.repeats d := by
  induction more generalizing ds with
  | nil => exact (List.append_nil ds).symm
  | cons d rest ih =>
    show (ds.push d).extend rest = _
    cases hany : ds.any (·.repeats d) with
    | true =>
      rw [push, if_pos hany, ih, List.filter_cons_of_neg (by simp [hany])]
    | false =>
      rw [push, if_neg (by simp [hany]), ih, List.filter_cons_of_pos (by simp [hany]),
        List.eraseDupsBy_cons, List.filter_filter, List.append_assoc, List.singleton_append]
      congr 3
      refine List.filter_congr fun e _ => ?_
      cases h : d.repeats e <;> simp [h]

/-- What is there after adding was there before or was added. -/
theorem mem_of_mem_extend {ds more : Diagnostics} {d : Diagnostic} (h : d ∈ ds.extend more) :
    d ∈ ds ∨ d ∈ more := by
  rw [extend_eq_append] at h
  refine (List.mem_append.mp h).imp_right fun h => ?_
  exact List.mem_of_mem_filter ((sublist_eraseDupsBy _).subset h)

/-- The diagnostics collected of many are their first occurrences. -/
theorem extend_nil (ds : Diagnostics) :
    Diagnostics.extend [] ds = ds.eraseDupsBy fun d e => e.repeats d := by
  rw [extend_eq_append]
  simp

/-- Diagnostics that are collected once more stay as they are. -/
theorem extend_nil_extend_nil (ds : Diagnostics) :
    Diagnostics.extend [] (Diagnostics.extend [] ds) = Diagnostics.extend [] ds := by
  rw [extend_nil, extend_nil]
  exact eraseDupsBy_eq_self (pairwise_eraseDupsBy ds)

end Diagnostics

end ProviderMock
