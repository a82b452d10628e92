import ProviderMock.Proofs.Aligned
import ProviderMock.Value

/-!
# Elements of a set

Adding to a set leaves out what equals an element that it has, so a set stands for more values than
its elements. `Value.Holds` is membership as adding sees it, and `Represents` lifts a relation of
values to a list of values and the elements of a set that stands for them.
-/

namespace ProviderMock

namespace Value

/-- Elements hold a value if it is one of them or equal to one. (Not-a-number equals nothing, so a
value that has one in it is held only as itself.) -/
def Holds (elements : List Value) (v : Value) : Prop :=
  ∃ e ∈ elements, e = v ∨ e.same v = true

theorem holds_of_mem {elements : List Value} {v : Value} (h : v ∈ elements) : Holds elements v :=
  ⟨v, h, .inl rfl⟩

theorem Holds.append {elements : List Value} {v : Value} (h : Holds elements v)
    (more : List Value) : Holds (elements ++ more) v := by
  obtain ⟨e, he, hev⟩ := h
  exact ⟨e, List.mem_append_left _ he, hev⟩

/-- Nothing is left out of elements of which none equals a later one. -/
theorem distinct_eq_self {elements : List Value}
    (h : elements.Pairwise fun v w => v.same w = false) : distinct elements = elements := by
  -- from any kept elements on, as long as all are apart
  have aux : ∀ elements kept : List Value,
      (kept ++ elements).Pairwise (fun v w => v.same w = false) →
      elements.foldl (fun kept e => if kept.any (·.same e) then kept else kept ++ [e]) kept =
        kept ++ elements := by
    intro elements
    induction elements with
    | nil => simp
    | cons e rest ih =>
      intro kept h
      have hnone : kept.any (·.same e) = false := by
        refine List.any_eq_false.mpr fun k hk => ?_
        exact Bool.eq_false_iff.mp
          ((List.pairwise_append.mp h).2.2 k hk e List.mem_cons_self)
      rw [List.foldl_cons, if_neg (by simp [hnone]), ih _ (by simpa using h)]
      simp
  exact aux elements [] h

/-- No element that is kept equals a later one. -/
theorem pairwise_distinct (elements : List Value) :
    (distinct elements).Pairwise fun v w => v.same w = false := by
  -- from any kept elements on that are apart: what is added equals none of them
  have aux : ∀ elements kept : List Value, kept.Pairwise (fun v w => v.same w = false) →
      (elements.foldl (fun kept e => if kept.any (·.same e) then kept else kept ++ [e])
        kept).Pairwise fun v w => v.same w = false := by
    intro elements
    induction elements with
    | nil => exact fun kept h => h
    | cons e rest ih =>
      intro kept h
      rw [List.foldl_cons]
      refine ih _ ?_
      split
      · exact h
      · rename_i hnone
        refine List.pairwise_append.mpr ⟨h, List.pairwise_singleton _ _, fun k hk w hw => ?_⟩
        obtain rfl := List.mem_singleton.mp hw
        exact Bool.eq_false_iff.mpr fun hsame => hnone (List.any_eq_true.mpr ⟨k, hk, hsame⟩)
  exact aux elements [] .nil

/-- What is kept is kept again. -/
theorem distinct_distinct (elements : List Value) :
    distinct (distinct elements) = distinct elements :=
  distinct_eq_self (pairwise_distinct elements)

/-- What is left out equals an element that is kept. -/
theorem holds_distinct {elements : List Value} {v : Value} (h : v ∈ elements) :
    Holds (distinct elements) v := by
  -- from any kept elements on: they may hold the value already
  have aux : ∀ elements kept : List Value, Holds kept v ∨ v ∈ elements →
      Holds (elements.foldl
        (fun kept e => if kept.any (·.same e) then kept else kept ++ [e]) kept) v := by
    intro elements
    induction elements with
    | nil => exact fun kept h => h.resolve_right List.not_mem_nil
    | cons e rest ih =>
      intro kept h
      rw [List.foldl_cons]
      refine ih _ ?_
      rcases h with h | h
      · left
        split
        · exact h
        · exact h.append [e]
      · rcases List.mem_cons.mp h with rfl | h
        · left
          split
          · rename_i hany
            obtain ⟨k, hk, hkv⟩ := List.any_eq_true.mp hany
            exact ⟨k, hk, .inr hkv⟩
          · exact holds_of_mem (List.mem_append_right _ List.mem_cons_self)
        · exact .inr h
  exact aux elements [] (.inr h)

end Value

/-- The elements of a set stand for values: each of them is related to a value, and for each value
they hold one that is related to it. -/
def Represents (R : Value → Value → Prop) (values elements : List Value) : Prop :=
  (∀ e ∈ elements, ∃ v ∈ values, R v e) ∧ ∀ v ∈ values, ∃ w, R v w ∧ Value.Holds elements w

/-- A set of related values stands for the values. -/
theorem represents_distinct {R : Value → Value → Prop} {values elements : List Value}
    (h : List.Forall₂ R values elements) : Represents R values (Value.distinct elements) := by
  refine ⟨fun e he => exists_mem_left h ((Value.sublist_distinct elements).subset he), ?_⟩
  intro v hv
  obtain ⟨w, hw, hvw⟩ := exists_mem_right h hv
  exact ⟨w, hvw, Value.holds_distinct hw⟩

end ProviderMock
