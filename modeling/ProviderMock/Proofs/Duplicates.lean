import Mathlib.Data.List.OfFn
import ProviderMock.Proofs.Apartness
import ProviderMock.Proofs.Places
import ProviderMock.Proofs.Shape

/-!
# Elements that become equal

Where a set of nested objects is declared, the elements of the target are completed one by one, and
of completions that are equal the first is kept. Elements can become equal when their unset leaves
are filled. They cannot when there is a leaf that is not filled and that tells them apart.

* **first of equals** — `Value.Kept` are the positions that are kept of a row of values, and
  `Value.exists_kept` says that collecting a set keeps them. `Value.Kept.apart`: of values that are
  not equal, each has an element of its own.
* **one element** — `Context.elementMerge` is the completion of one element, and
  `Context.field_set` says that the set is collected from these.
* **leaves** — `Context.same_eq_false_of_tellsApart`: a leaf that is not filled passes its
  difference on.
* **a whole walk** — `Context.set_loses_duplicates`, for every set that a walk comes to.
-/

namespace ProviderMock

namespace Value

/-! ## The first of equals -/

variable {n : ℕ} {f : Fin n → Value}

/-- What is kept of a row of values: in order, the positions of those that equal none kept before
them. -/
structure Kept (f : Fin n → Value) (keep : List (Fin n)) : Prop where
  ascending : keep.Pairwise (· < ·)
  mem_iff : ∀ i, i ∈ keep ↔ ∀ k ∈ keep, k < i → (f k).same (f i) = false

/-- One position stands for another: it is the same, or it has a value that equals the other one. -/
def StandsFor (f : Fin n → Value) (k i : Fin n) : Prop := k = i ∨ (f k).same (f i) = true

/-- One more value is kept unless it equals one that is. -/
theorem distinct_concat (elements : List Value) (e : Value) :
    distinct (elements ++ [e]) =
      if (distinct elements).any (·.same e) then distinct elements else distinct elements ++ [e] :=
  List.foldl_append

/-- A row keeps what it kept before its last value, and the last one if it equals none of these. -/
theorem Kept.succ {f : Fin (n + 1) → Value} {keep : List (Fin n)} {added : List (Fin (n + 1))}
    (h : Kept (fun i => f i.castSucc) keep) (hadded : added.Sublist [Fin.last n])
    (hlast : Fin.last n ∈ added ↔ ∀ k ∈ keep, (f k.castSucc).same (f (Fin.last n)) = false) :
    Kept f (keep.map Fin.castSucc ++ added) := by
  have heq : ∀ k ∈ added, k = Fin.last n := fun k hk => List.mem_singleton.mp (hadded.subset hk)
  -- the last position comes before none, so it is not compared with any other
  have hbefore : ∀ i, (∀ k ∈ keep.map Fin.castSucc ++ added, k < i → (f k).same (f i) = false) ↔
      ∀ k ∈ keep, k.castSucc < i → (f k.castSucc).same (f i) = false := by
    intro i
    rw [List.forall_mem_append, List.forall_mem_map]
    exact and_iff_left fun k hk hlt => absurd hlt (heq k hk ▸ Fin.not_lt.mpr (Fin.le_last i))
  constructor
  · refine List.pairwise_append.mpr ⟨List.pairwise_map.mpr h.ascending,
      (List.pairwise_singleton _ _).sublist hadded, fun k hk l hl => ?_⟩
    obtain ⟨k, -, rfl⟩ := List.mem_map.mp hk
    exact heq l hl ▸ Fin.castSucc_lt_last k
  · intro i
    rw [hbefore, List.mem_append]
    cases i using Fin.lastCases with
    | last =>
      have hnot : Fin.last n ∉ keep.map Fin.castSucc := by simp [Fin.castSucc_ne_last]
      rw [or_iff_right hnot, hlast]
      exact forall₂_congr fun k _ => (imp_iff_right (Fin.castSucc_lt_last k)).symm
    | cast i =>
      have hnot : i.castSucc ∉ added := fun hi => Fin.castSucc_ne_last i (heq _ hi)
      rw [or_iff_left hnot, List.mem_map_of_injective (Fin.castSucc_injective n)]
      exact h.mem_iff i

/-- Collecting a set keeps the first of equal values. -/
theorem exists_kept {n : ℕ} (f : Fin n → Value) :
    ∃ keep, Kept f keep ∧ distinct (List.ofFn f) = keep.map f := by
  induction n with
  | zero => exact ⟨[], ⟨.nil, fun i => i.elim0⟩, rfl⟩
  | succ n ih =>
    obtain ⟨keep, hkeep, hkept⟩ := ih fun i => f i.castSucc
    have heq : distinct (List.ofFn fun i : Fin n => f i.castSucc) = (keep.map Fin.castSucc).map f :=
      hkept.trans List.map_map.symm
    have hconcat : distinct (List.ofFn f) =
        if ((keep.map Fin.castSucc).map f).any (·.same (f (Fin.last n)))
        then (keep.map Fin.castSucc).map f
        else (keep.map Fin.castSucc).map f ++ [f (Fin.last n)] := by
      rw [List.ofFn_succ', List.concat_eq_append, distinct_concat, heq]
    by_cases hany : ((keep.map Fin.castSucc).map f).any (·.same (f (Fin.last n))) = true
    · refine ⟨_, hkeep.succ (List.nil_sublist _) ?_, ?_⟩
      · simpa using hany
      · rw [hconcat, if_pos hany, List.append_nil]
    · refine ⟨_, hkeep.succ (List.Sublist.refl _) ?_, ?_⟩
      · simpa using hany
      · rw [hconcat, if_neg hany, List.map_append, List.map_singleton]

/-- A value that is not kept equals one that is kept before it. -/
theorem Kept.exists_lt_of_notMem {keep : List (Fin n)} (h : Kept f keep) {i : Fin n}
    (hi : i ∉ keep) : ∃ k ∈ keep, k < i ∧ (f k).same (f i) = true := by
  rw [h.mem_iff] at hi
  push Not at hi
  obtain ⟨k, hk, hki, hsame⟩ := hi
  exact ⟨k, hk, hki, eq_true_of_ne_false hsame⟩

/-- Every value is kept, or equals one that is. -/
theorem Kept.exists_standsFor {keep : List (Fin n)} (h : Kept f keep) (i : Fin n) :
    ∃ k ∈ keep, StandsFor f k i := by
  by_cases hi : i ∈ keep
  · exact ⟨i, hi, .inl rfl⟩
  · obtain ⟨k, hk, -, hsame⟩ := h.exists_lt_of_notMem hi
    exact ⟨k, hk, .inr hsame⟩

/-- What stands for values that are not equal is not equal either. -/
theorem StandsFor.same_eq_false (hf : ∀ i, (f i).Proper) {i j k l : Fin n}
    (hk : StandsFor f k i) (hl : StandsFor f l j) (h : (f i).same (f j) = false) :
    (f k).same (f l) = false := by
  refine Bool.eq_false_iff.mpr fun hsame => Bool.eq_false_iff.mp h ?_
  have hil : (f i).same (f l) = true := by
    rcases hk with rfl | hk
    · exact hsame
    · exact same_trans (same_symm (hf k) (hf i) hk) hsame
  rcases hl with rfl | hl
  · exact hil
  · exact same_trans hil hl

/-- **Of values that are not equal each has an element of its own.** -/
theorem Kept.apart {keep : List (Fin n)} (h : Kept f keep) (hf : ∀ i, (f i).Proper) {i j : Fin n}
    (hij : i ≠ j) (hapart : (f i).same (f j) = false) :
    ∃ k ∈ keep, ∃ l ∈ keep, k ≠ l ∧ StandsFor f k i ∧ StandsFor f l j ∧
      (f k).same (f l) = false ∧ (f l).same (f k) = false := by
  obtain ⟨k, hk, hki⟩ := h.exists_standsFor i
  obtain ⟨l, hl, hlj⟩ := h.exists_standsFor j
  have hkl : (f k).same (f l) = false := hki.same_eq_false hf hlj hapart
  refine ⟨k, hk, l, hl, ?_, hki, hlj, hkl, ?_⟩
  · rintro rfl
    -- a value that stands for both equals itself, as what equals something does
    rcases hki with rfl | hki
    · exact Bool.eq_false_iff.mp hapart (hlj.resolve_left hij)
    · exact Bool.eq_false_iff.mp hkl (same_trans hki (same_symm (hf k) (hf i) hki))
  · exact Bool.eq_false_iff.mpr fun hsame =>
      Bool.eq_false_iff.mp hkl (same_symm (hf l) (hf k) hsame)

end Value

namespace Synthesis

open Value (Kept StandsFor)

/-! ## One element -/

/-- A walk over elements comes to each of them after those before it. -/
theorem map_snd_each_indexed {β : Type} (f : Value → Path → Walk β) (path : Path)
    (elements : List Value) (start : ℕ) (p : Progress) :
    (Walk.each f path (indexed start elements) p).1.map Prod.snd =
      List.ofFn fun i : Fin elements.length => (f elements[i] (path.step (.index (start + i)))
        (Walk.each f path (indexed start (elements.take i)) p).2).1 := by
  induction elements generalizing start p with
  | nil => rfl
  | cons e rest ih =>
    have hnext : ∀ i : ℕ, start + 1 + i = start + (i + 1) := fun i => by omega
    simp only [indexed, Walk.each, Walk.bind_apply, Walk.pure_apply, List.map_cons, ih,
      List.length_cons, List.ofFn_succ, hnext]
    rfl

namespace Context

variable (context : Context) (parts : List (String × Part))

/-- What the element at a position is completed to, when a walk over a set comes to it. -/
def elementMerge (elements : List Value) (r : Option Value) (path : Path) (p : Progress)
    (i : Fin elements.length) : Value :=
  let held := context.nestedReplacement r path p
  let complete child path := context.object parts child held.1 path
  let before := Walk.each complete path (indexed 0 (elements.take i)) held.2
  (complete elements[i] (path.step (.index i)) before.2).1

/-- A set is collected from what the elements of a list or a set are completed to. -/
theorem field_set {target : Value} {elements : List Value}
    (helements : target.elements? = some elements) (r : Option Value) (path : Path)
    (p : Progress) :
    (context.field (.nested (.many .set) parts) target r path p).1 =
      .setOf (Part.objectType parts)
        (List.ofFn (context.elementMerge parts elements r path p)) := by
  have hchildren : Collection.set.children? target = some (indexed 0 elements) :=
    congrArg (Option.map (indexed 0)) helements
  rw [context.field_of_children parts r path hchildren]
  simp only [Walk.bind_apply, Walk.pure_apply, Collection.build, map_snd_each_indexed,
    Nat.zero_add]
  rfl

/-- An object is completed to one that has, for each leaf that is not filled, what it has itself. -/
theorem field?_object_of_kept {name : String} {t : Ty} {computed : Bool}
    (hpart : (Fields.ofList parts).lookup name = some (.leaf t computed)) {target a : Value}
    (ha : target.field? name = some a)
    (hset : computed = true → context.mode.isUnset a = false) (r : Option Value) (path : Path)
    (p : Progress) : (context.object parts target r path p).1.field? name = some a := by
  -- what other leaves are filled with plays no part
  have hcompletes : CompletesObject context.mode (fun _ _ => True) parts target
      (context.object parts target r path p).1 :=
    completes_object context (Q := fun _ => True) (fun _ _ _ _ _ => trivial)
      (fun _ _ _ _ _ _ _ => trivial) parts target (fun _ _ => trivial) path p
  obtain ⟨fields, hfields, -, hlookup⟩ := hcompletes.exists_lookup
  obtain ⟨w, hw, hleaf⟩ := hlookup name _ hpart
  have hkept : (computed && context.mode.isUnset a) = false := by
    cases computed with
    | false => rfl
    | true => exact hset rfl
  rw [Completes, Value.fieldOr_of_field? ha, hkept] at hleaf
  rw [hfields]
  exact hleaf ▸ hw

end Context

/-! ## Leaves that tell elements apart -/

/-- Two objects differ in a leaf that a mode does not fill: one that is not computed, or that is set
in both. What is declared last under a name counts, so the leaf is not hidden by a nested block. -/
def TellsApart (mode : Mode) (parts : List (String × Part)) (v w : Value) : Prop :=
  ∃ name t computed a b, (Fields.ofList parts).lookup name = some (.leaf t computed) ∧
    v.field? name = some a ∧ w.field? name = some b ∧
    (computed = true → mode.isUnset a = false ∧ mode.isUnset b = false) ∧ a.same b = false

namespace Context

variable (context : Context) {parts : List (String × Part)}

/-- Objects that differ in a leaf that is not filled are completed to objects that differ in it. -/
theorem same_eq_false_of_tellsApart {v w : Value} (h : TellsApart context.mode parts v w)
    (r : Option Value) (path path' : Path) (p p' : Progress) :
    (context.object parts v r path p).1.same (context.object parts w r path' p').1 = false := by
  obtain ⟨name, t, computed, a, b, hpart, ha, hb, hset, hab⟩ := h
  have hv := context.field?_object_of_kept parts hpart ha (fun h => (hset h).1) r path p
  have hw := context.field?_object_of_kept parts hpart hb (fun h => (hset h).2) r path' p'
  exact Bool.eq_false_iff.mpr fun hsame =>
    Bool.eq_false_iff.mp hab (Value.same_of_field? hsame hv hw)

end Context

/-! ## Sets that a walk comes to -/

/-- A walk over a proper target comes to proper targets of well-formed fields. -/
theorem proper_of_mem_visits {part : Part} (hpart : part.WellFormed) {target : Value}
    (htarget : target.Proper) {path : Path} {visit : Visit}
    (h : visit ∈ part.visits target path) : visit.part.WellFormed ∧ visit.target.Proper := by
  induction part using Part.induction generalizing target path with
  | leaf t computed =>
    obtain rfl := List.mem_singleton.mp h
    exact ⟨hpart, htarget⟩
  | nested nesting parts ih =>
    rcases Part.mem_visits_nested.mp h with rfl | ⟨object, hobject, h⟩
    · exact ⟨hpart, htarget⟩
    · obtain ⟨q, hq, h⟩ := Part.mem_visitsFields.mp h
      have hwell : q.2.WellFormed := Part.allWellFormed_iff.mp hpart q hq
      have hproper : object.2.Proper := Value.proper_iff_everywhere.mpr
        (Nesting.everywhere_of_mem_objects (Value.proper_iff_everywhere.mp htarget) hobject)
      exact ih q hq hwell (hproper.fieldOr q.1 hwell.type) h

namespace Context

variable (context : Context)

/-- **A set of nested objects loses duplicates alone.** Wherever a walk along a block comes to a set
of nested objects, and the target is a list or a set there, the result consists of what the elements
are completed to, in order, without those that equal one kept before. So something stands for every
element; and two elements that differ in a leaf that is not filled have elements of their own, which
are not equal either. -/
theorem set_loses_duplicates {schema : Block} (hschema : schema.isWellFormed = true)
    {target : Value} (htarget : target.Proper) {r : Option Value} (hr : ∀ x ∈ r, x.Proper)
    {visit : Visit} (hvisit : visit ∈ schema.visits target) {parts : List (String × Part)}
    (hpart : visit.part = .nested (.many .set) parts) {elements : List Value}
    (helements : visit.target.elements? = some elements) (p : Progress) :
    let merged := context.elementMerge parts elements (visit.path.partOf r) visit.path p
    ∃ keep, (context.field visit.part visit.target (visit.path.partOf r) visit.path p).1 =
        .set (Part.objectType parts) (keep.map merged) ∧
      Kept merged keep ∧
      (∀ i, ∃ k ∈ keep, StandsFor merged k i) ∧
      ∀ i j : Fin elements.length, i ≠ j → TellsApart context.mode parts elements[i] elements[j] →
        ∃ k ∈ keep, ∃ l ∈ keep, k ≠ l ∧ StandsFor merged k i ∧ StandsFor merged l j ∧
          (merged k).same (merged l) = false ∧ (merged l).same (merged k) = false := by
  intro merged
  have hroot : schema.root.WellFormed := Block.wellFormed_parts schema hschema
  obtain ⟨hwell, hproper⟩ := proper_of_mem_visits hroot htarget (Block.mem_visits_root hvisit)
  rw [hpart] at hwell
  have hparts : ∀ q ∈ parts, q.2.WellFormed := Part.allWellFormed_iff.mp hwell
  have hheld : ∀ x ∈ (context.nestedReplacement (visit.path.partOf r) visit.path p).1,
      x.Proper :=
    fun x hx => Path.of_mem_partOf (fun _ _ _ hz hfield => hz.of_field hfield) hr x
      (context.mem_of_mem_nestedReplacement hx)
  have hmerged : ∀ i, (merged i).Proper := by
    intro i
    have helement : elements[i].Proper := hproper.of_mem_parts
      (Value.parts_of_elements helements ▸ List.getElem_mem i.isLt)
    exact proper_object hparts helement hheld _ _
  obtain ⟨keep, hkept, hdistinct⟩ := Value.exists_kept merged
  refine ⟨keep, ?set, hkept, hkept.exists_standsFor, fun i j hij h => ?apart⟩
  case set =>
    rw [hpart, context.field_set parts helements, Value.setOf, hdistinct]
  case apart =>
    exact hkept.apart hmerged hij (context.same_eq_false_of_tellsApart h _ _ _ _ _)

/-! ### A cellar -/

/-- The schema of a cellar: a set of bottles, each with a lot that may be filled in. -/
def cellar : Block :=
  .mk [] [("bottle", .many .set,
    .mk [("grape", .plain .string false), ("lot", .plain .string true)] [])]

/-- A bottle. -/
def bottle (grape : String) (lot : Value) : Value :=
  .ofFields [("grape", .string grape), ("lot", lot)]

/-- Three bottles, two of them without a lot. -/
def bottles : List Value :=
  [bottle "pinot" (.null .string), bottle "pinot" (.string "s"), bottle "merlot" (.null .string)]

/-- What a walk comes to in a cellar with these bottles. -/
def bottlesVisit : Visit where
  path := [.attr "bottle"]
  part := .nested (.many .set) [("grape", .leaf .string false), ("lot", .leaf .string true)]
  target := .setOfFirst bottles

/-- A lot for all bottles that have none. -/
def sharedLot : Value := .ofFields [("bottle", .ofFields [("lot", .string "s")])]

/-- The first and the last bottle have different grapes, so they do not become one. -/
theorem set_loses_duplicates_cellar :
    let context : Context := ⟨.read, SourceRange.unspecified⟩
    let held := bottlesVisit.path.partOf (some sharedLot)
    let merged : Fin 3 → Value := context.elementMerge
      [("grape", .leaf .string false), ("lot", .leaf .string true)] bottles held bottlesVisit.path
      ⟨Generator.seeded 0, []⟩
    ∃ keep, (context.field bottlesVisit.part bottlesVisit.target held bottlesVisit.path
          ⟨Generator.seeded 0, []⟩).1 =
        .set (.object [("grape", .string), ("lot", .string)]) (keep.map merged) ∧
      Kept merged keep ∧
      ∃ k ∈ keep, ∃ l ∈ keep, k ≠ l ∧ StandsFor merged k 0 ∧ StandsFor merged l 2 := by
  have htarget : (Value.ofFields [("bottle", .setOfFirst bottles)]).Proper :=
    ⟨by decide, by decide⟩
  have hr : ∀ x ∈ some sharedLot, x.Proper := by
    rintro _ ⟨⟩
    exact ⟨by decide, by decide⟩
  have hvisit : bottlesVisit ∈ cellar.visits (.ofFields [("bottle", .setOfFirst bottles)]) :=
    List.mem_cons_self
  obtain ⟨keep, hset, hkept, -, hapart⟩ := set_loses_duplicates ⟨.read, SourceRange.unspecified⟩
    (by decide) htarget hr hvisit rfl (show _ = some bottles from rfl) ⟨Generator.seeded 0, []⟩
  obtain ⟨k, hk, l, hl, hkl, hk0, hl2, -⟩ := hapart (0 : Fin 3) (2 : Fin 3)
    (show (0 : Fin 3) ≠ 2 by decide)
    ⟨"grape", .string, false, .string "pinot", .string "merlot", rfl, rfl, rfl, nofun, by decide⟩
  exact ⟨keep, hset, hkept, k, hk, l, hl, hkl, hk0, hl2⟩

example : (readDataSource cellar (.ofFields [("bottle", .setOfFirst bottles)])
      ⟨some sharedLot, SourceRange.unspecified⟩ (Generator.seeded 0)).value =
    .object [("bottle", .set (.object [("grape", .string), ("lot", .string)])
      [bottle "pinot" (.string "s"), bottle "merlot" (.string "s")])] := by rfl

end Context

end Synthesis

end ProviderMock
