import ProviderMock.Proofs.Duplicates
import ProviderMock.Proofs.Equivalence

/-!
# Sets from the same values in any order

A set is collected from values one after the other, and which of equal values it keeps depends on
their order. Which set it is does not: the values may come in any order, and each may be exchanged
for one that equals it. The sets in all these values hold no equal elements. With a value whose sets
do hold some, equality may go one way only, and an exchange may make another set.

* **first of equals** — `Value.Kept.mem_iff_first`: the positions that are kept are those that no
  earlier one equals.
* **sets** — `Value.setOf_of_perm`.
-/

namespace ProviderMock

namespace Value

/-! ## The first of equals -/

variable {n : ℕ} {f : Fin n → Value}

/-- The first of each class of equal values in a row: in order, the positions that equal no earlier
one, and for every position there is one of these that equals it. -/
structure FirstOfEach (f : Fin n → Value) (keep : List (Fin n)) : Prop where
  ascending : keep.Pairwise (· < ·)
  mem_iff : ∀ i, i ∈ keep ↔ ∀ j < i, (f j).same (f i) = false
  covers : ∀ i, ∃ k ∈ keep, k ≤ i ∧ (f k).same (f i) = true

/-- A value that equals an earlier one equals one that is kept: the one that stands for it. -/
theorem Kept.mem_iff_first {keep : List (Fin n)} (h : Kept f keep) (i : Fin n) :
    i ∈ keep ↔ ∀ j < i, (f j).same (f i) = false := by
  rw [h.mem_iff]
  refine ⟨fun hi j hj => Bool.eq_false_iff.mpr fun hji => ?_, fun hi k _ hk => hi k hk⟩
  by_cases hkeep : j ∈ keep
  · exact Bool.eq_false_iff.mp (hi j hkeep hj) hji
  · obtain ⟨k, hk, hkj, hsame⟩ := h.exists_lt_of_notMem hkeep
    exact Bool.eq_false_iff.mp (hi k hk (hkj.trans hj)) (same_trans hsame hji)

/-- Of values that equal themselves the first of each class is kept. -/
theorem Kept.firstOfEach {keep : List (Fin n)} (h : Kept f keep)
    (hself : ∀ i, (f i).same (f i) = true) : FirstOfEach f keep where
  ascending := h.ascending
  mem_iff := h.mem_iff_first
  covers i := by
    by_cases hi : i ∈ keep
    · exact ⟨i, hi, le_refl i, hself i⟩
    · obtain ⟨k, hk, hki, hsame⟩ := h.exists_lt_of_notMem hi
      exact ⟨k, hk, hki.le, hsame⟩

/-! ## Sets -/

/-- **A set does not depend on the order of its values.** Let values be put in another order, and
each be exchanged for a proper one that equals it. Both lists make sets that equal each other either
way and have the same size. What is kept are the first values of each class of equal ones, in order;
no two of them are equal, and collecting a set of them again changes nothing. -/
theorem setOf_of_perm {t u : Ty} (ht : t.isWellFormed = true) (htu : t.same u = true)
    {vs us ws : List Value} (hvs : ∀ v ∈ vs, v.Regular) (hperm : us.Perm vs)
    (hsame : List.Forall₂ (fun v w => v.same w = true) us ws) (hws : ∀ w ∈ ws, w.Proper) :
    (setOf t vs).same (setOf u ws) = true ∧ (setOf u ws).same (setOf t vs) = true ∧
      (distinct vs).length = (distinct ws).length ∧
      ∃ keep : List (Fin vs.length), FirstOfEach vs.get keep ∧
        setOf t vs = .set t (keep.map vs.get) ∧
        ((keep.map vs.get).Pairwise fun v w => v.same w = false ∧ w.same v = false) ∧
        setOf t (keep.map vs.get) = setOf t vs := by
  have hvs' : ∀ v ∈ vs, v.Proper := fun v hv => (hvs v hv).toProper
  have hpartner : ∀ v ∈ vs, ∃ w ∈ ws, v.same w = true :=
    fun v hv => exists_mem_right hsame (hperm.mem_iff.mpr hv)
  have hexchanged : ∀ w ∈ ws, ∃ v ∈ vs, w.same v = true := by
    intro w hw
    obtain ⟨v, hv, hvw⟩ := exists_mem_left hsame hw
    have hmem : v ∈ vs := hperm.mem_iff.mp hv
    exact ⟨v, hmem, same_symm (hvs' v hmem) (hws w hw) hvw⟩
  have hto : (setOf t vs).same (setOf u ws) = true :=
    same_setOf htu hvs' hws hpartner hexchanged
  have hfro : (setOf u ws).same (setOf t vs) = true :=
    same_setOf (Ty.same_symm ht htu) hws hvs' hexchanged hpartner
  have hset : (setOf t vs).Proper := .setOf ht hvs'
  obtain ⟨_, _, ⟨⟩, -, hlength, -⟩ := same_set_iff.mp hto
  obtain ⟨keep, hkept, hkeep⟩ := exists_kept vs.get
  rw [List.ofFn_get] at hkeep
  refine ⟨hto, hfro, hlength, keep,
    hkept.firstOfEach fun i => (hvs _ (List.get_mem vs i)).same_self, ?_, ?_, ?_⟩
  · rw [setOf, hkeep]
  · rw [← hkeep]
    exact decide_eq_true_iff.mp (everywhere_iff.mp hset.isRepetitionFree).1
  · rw [← hkeep, setOf, setOf, distinct_distinct]

/-! ### Tosses -/

/-- A set of numbers of points. -/
def toss (points : List Double) : Value := setOf .number (points.map number)

/-- Three tosses, of which the last is the first with the other zero and in another order. -/
def tosses : List Value :=
  [toss [Double.zero false, ⟨0x3FF0000000000000⟩], toss [⟨0x4000000000000000⟩],
    toss [⟨0x3FF0000000000000⟩, Double.zero true]]

/-- The same tosses from the last one to the first, the points of each in another order. -/
def tossesBack : List Value :=
  [toss [Double.zero false, ⟨0x3FF0000000000000⟩], toss [⟨0x4000000000000000⟩],
    toss [⟨0x3FF0000000000000⟩, Double.zero false]]

/-- The tosses make one set of two elements in both orders. -/
theorem setOf_of_perm_tosses :
    (∀ v ∈ tosses, v.Regular) ∧ tosses.reverse.Perm tosses ∧
      List.Forall₂ (fun v w => v.same w = true) tosses.reverse tossesBack ∧
      (∀ w ∈ tossesBack, w.Proper) ∧
      (setOf (.set .number) tosses).same (setOf (.set .number) tossesBack) = true ∧
      (setOf (.set .number) tossesBack).same (setOf (.set .number) tosses) = true ∧
      ∃ keep, FirstOfEach tosses.get keep ∧
        setOf (.set .number) tosses = .set (.set .number) (keep.map tosses.get) := by
  have hregular : ∀ v ∈ tosses, v.Regular := by
    simp only [tosses, List.forall_mem_cons]
    exact ⟨⟨⟨by decide, by decide⟩, by decide⟩, ⟨⟨by decide, by decide⟩, by decide⟩,
      ⟨⟨by decide, by decide⟩, by decide⟩, nofun⟩
  have hperm : tosses.reverse.Perm tosses := List.reverse_perm tosses
  have hback : List.Forall₂ (fun v w => v.same w = true) tosses.reverse tossesBack :=
    .cons (by decide) (.cons (by decide) (.cons (by decide) .nil))
  have hproper : ∀ w ∈ tossesBack, w.Proper := by
    simp only [tossesBack, List.forall_mem_cons]
    exact ⟨⟨by decide, by decide⟩, ⟨by decide, by decide⟩, ⟨by decide, by decide⟩, nofun⟩
  obtain ⟨hto, hfro, -, keep, hfirst, hset, -⟩ :=
    setOf_of_perm (t := .set .number) (u := .set .number) (by decide) (by decide) hregular hperm
      hback hproper
  exact ⟨hregular, hperm, hback, hproper, hto, hfro, keep, hfirst, hset⟩

example : setOf (.set .number) tosses = .set (.set .number) (tosses.take 2) := by rfl

end Value

end ProviderMock
