import Mathlib.Data.List.Basic
import ProviderMock.Diagnostics

/-!
# What messages tell apart

A diagnostic says what is wrong in a text, and two diagnostics with the same text count as one. The
text names the place in the replacement by the names that lead to it; if these have no points and no
spaces in them, then it can be read back from the text, so that one text never stands for two
places.

* **places** — `Path.attributeNames_of_replacementDisplay`: the names can be told from their text.
* **types** — `Ty.friendlyName_append`: where the name of a type ends can be told from the name.
* **details** — `Diagnostic.attributeNames_of_nestedShape`,
  `Diagnostic.attributeNames_of_typeMismatch`, `Diagnostic.detail_nestedShape_ne` and
  `Diagnostic.detail_nonObject_ne`: the details of two reports differ if they are about two places,
  or about two kinds of problem.
-/

namespace ProviderMock

/-- A name without points and spaces. -/
def isPlainName (name : String) : Bool := decide ('.' ∉ name.toList ∧ ' ' ∉ name.toList)

/-- Where a text goes on with a character of another kind, or ends, is determined by the text. -/
theorem eq_of_append_of_stops {p : Char → Bool} {xs ys xs' ys' : List Char}
    (hxs : ∀ c ∈ xs, p c = false) (hys : ∀ c ∈ ys, p c = false)
    (hxs' : ∀ c ∈ xs'.head?, p c = true) (hys' : ∀ c ∈ ys'.head?, p c = true)
    (h : xs ++ xs' = ys ++ ys') : xs = ys ∧ xs' = ys' := by
  induction xs generalizing ys with
  | nil =>
    cases ys with
    | nil => exact ⟨rfl, h⟩
    | cons y ys =>
      rw [List.nil_append] at h
      subst h
      exact absurd (hxs' y rfl) (Bool.eq_false_iff.mp (hys y List.mem_cons_self))
  | cons x xs ih =>
    cases ys with
    | nil =>
      rw [List.nil_append] at h
      subst h
      exact absurd (hys' x rfl) (Bool.eq_false_iff.mp (hxs x List.mem_cons_self))
    | cons y ys =>
      obtain ⟨rfl, hrest⟩ := List.cons.inj h
      obtain ⟨rfl, hstop⟩ := ih (List.forall_mem_cons.mp hxs).2 (List.forall_mem_cons.mp hys).2 hrest
      exact ⟨rfl, hstop⟩

/-- What comes before the first occurrence of a character is determined by the text. -/
theorem eq_of_append_cons {c : Char} {xs ys xs' ys' : List Char} (hxs : c ∉ xs) (hys : c ∉ ys)
    (h : xs ++ c :: xs' = ys ++ c :: ys') : xs = ys := by
  have hother : ∀ {zs : List Char}, c ∉ zs → ∀ d ∈ zs, (d == c) = false :=
    fun hzs d hd => beq_eq_false_iff_ne.mpr fun heq => hzs (heq ▸ hd)
  exact (eq_of_append_of_stops (p := (· == c)) (hother hxs) (hother hys) (by simp) (by simp) h).1

/-! ## Places -/

namespace Path

variable {p q : Path}

/-- All names on a path are plain. -/
def Plain (path : Path) : Prop := ∀ name ∈ path.attributeNames, isPlainName name = true

/-- A text without spaces names a place by plain names. -/
theorem space_notMem_replacementDisplay (hp : p.Plain) : ' ' ∉ p.replacementDisplay.toList := by
  have aux : ∀ names : List String, (∀ name ∈ names, isPlainName name = true) →
      ' ' ∉ ['.'].intercalate (names.map String.toList) := by
    intro names hnames
    induction names with
    | nil => simp
    | cons name rest ih =>
      obtain ⟨hname, hrest⟩ := List.forall_mem_cons.mp hnames
      have hspace : ' ' ∉ name.toList := (decide_eq_true_iff.mp hname).2
      cases rest with
      | nil => simpa using hspace
      | cons next rest =>
        rw [List.map_cons, List.map_cons, List.intercalate_cons_cons, ← List.map_cons]
        simpa [hspace] using ih hrest
  rw [replacementDisplay, String.toList_intercalate]
  exact aux p.attributeNames hp

/-- No name on a path has a point in it. -/
def PointFree (path : Path) : Prop := ∀ name ∈ path.attributeNames, '.' ∉ name.toList

theorem Plain.pointFree (hp : p.Plain) : p.PointFree :=
  fun name hname => (decide_eq_true_iff.mp (hp name hname)).1

/-- **The names on a path can be told from their text**, if there are any and none has a point. -/
theorem attributeNames_of_replacementDisplay (hp : p.PointFree) (hq : q.PointFree)
    (hpnil : p.attributeNames ≠ []) (hqnil : q.attributeNames ≠ [])
    (h : p.replacementDisplay = q.replacementDisplay) : p.attributeNames = q.attributeNames := by
  have hsplit : ∀ {path : Path}, path.PointFree → path.attributeNames ≠ [] →
      path.replacementDisplay.toList.splitOn '.' = path.attributeNames.map String.toList := by
    intro path hfree hnil
    rw [replacementDisplay, String.toList_intercalate]
    refine List.splitOn_intercalate '.' (fun text htext => ?_) (by simpa using hnil)
    obtain ⟨name, hname, rfl⟩ := List.mem_map.mp htext
    exact hfree name hname
  refine List.map_injective_iff.mpr (fun _ _ => String.toList_inj.mp) ?_
  rw [← hsplit hp hpnil, ← hsplit hq hqnil, h]

end Path

/-! ## Types -/

/-- No name of a type goes on to the name of another one. -/
theorem Ty.friendlyName_append {t u : Ty} {xs ys : List Char}
    (h : t.friendlyName.toList ++ xs = u.friendlyName.toList ++ ys) : xs = ys := by
  induction t using Ty.induction generalizing u with
  | list e ih | set e ih | map e ih =>
    cases u <;> simp [friendlyName] at h
    exact ih h
  | _ =>
    -- the names of two other kinds of types part at the first or the second letter
    cases u <;> simp [friendlyName] at h
    exact h

/-! ## Details -/

namespace Diagnostic

variable {p q : Path} {range : SourceRange}

/-- The place of a nested replacement can be told from the detail. -/
theorem attributeNames_of_nestedShape (hp : p.Plain) (hq : q.Plain)
    (hpnil : p.attributeNames ≠ []) (hqnil : q.attributeNames ≠ []) {t u : Ty}
    (h : (nestedShape p range t).detail = (nestedShape q range u).detail) :
    p.attributeNames = q.attributeNames := by
  have htext := congrArg String.toList h
  simp only [nestedShape, error, String.toList_append, List.append_assoc,
    List.append_cancel_left_eq] at htext
  refine Path.attributeNames_of_replacementDisplay hp.pointFree hq.pointFree hpnil hqnil
    (String.toList_inj.mp ?_)
  exact eq_of_append_cons (Path.space_notMem_replacementDisplay hp)
    (Path.space_notMem_replacementDisplay hq) htext

/-- The place of a leaf can be told from the detail. -/
theorem attributeNames_of_typeMismatch (hp : p.Plain) (hq : q.Plain)
    (hpnil : p.attributeNames ≠ []) (hqnil : q.attributeNames ≠ []) {t u : Ty}
    {e f : ConversionError}
    (h : (typeMismatch t p range e).detail = (typeMismatch u q range f).detail) :
    p.attributeNames = q.attributeNames := by
  have htext := congrArg String.toList h
  simp only [typeMismatch, error, String.toList_append, List.append_assoc,
    List.append_cancel_left_eq] at htext
  have htext := Ty.friendlyName_append htext
  simp only [List.append_cancel_left_eq] at htext
  refine Path.attributeNames_of_replacementDisplay hp.pointFree hq.pointFree hpnil hqnil
    (String.toList_inj.mp ?_)
  exact eq_of_append_cons (Path.space_notMem_replacementDisplay hp)
    (Path.space_notMem_replacementDisplay hq) htext

/-- The two kinds of reports have different details. -/
theorem detail_nestedShape_ne (t u : Ty) (e : ConversionError) (other : SourceRange) :
    (nestedShape p range t).detail ≠ (typeMismatch u q other e).detail := by
  intro h
  have htext := congrArg String.toList h
  simp [nestedShape, typeMismatch, error, String.toList_append] at htext

/-- What is said of a replacement as a whole is not what is said of a leaf. -/
theorem detail_nonObject_ne (t u : Ty) (e : ConversionError) :
    (nonObject t).detail ≠ (typeMismatch u q range e).detail := by
  intro h
  have htext := congrArg String.toList h
  simp [nonObject, typeMismatch, error, String.toList_append] at htext

end Diagnostic

end ProviderMock
