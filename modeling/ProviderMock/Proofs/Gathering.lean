import Mathlib.Data.List.Induction
import ProviderMock.Proofs.Occurrences

/-!
# Gathered diagnostics

Diagnostics are gathered by pushing single ones and by extending with collections that were gathered
elsewhere, in any nesting. Repeats are dropped at every push, so they are dropped over and over on
the way, and still nothing depends on how the gathering was nested.

* **keys** — `Diagnostic.key` is all of a diagnostic but its path. `Diagnostics.push_eq` says what
  pushing does in terms of keys.
* **nesting** — `Diagnostics.extend_push` and `Diagnostics.extend_assoc`: repeats that are dropped
  before are the same as repeats that are dropped after.
* **first occurrences** — `Gathering.collected_eq_firstOccurrences`: what is collected is what was
  pushed, without everything whose key came before it.
-/

namespace ProviderMock

/-- What a diagnostic says, wherever it was found. -/
def Diagnostic.key (d : Diagnostic) : Severity × String × String :=
  (d.severity, d.summary, d.detail)

/-- Repeats are what has the same key. -/
theorem Diagnostic.repeats_iff_key_eq {d e : Diagnostic} : d.repeats e = true ↔ d.key = e.key := by
  simp [repeats_iff, key]

namespace Diagnostics

/-! ## Keys -/

/-- What the diagnostics of a collection say, in order. -/
def keys (ds : Diagnostics) : List (Severity × String × String) := ds.map Diagnostic.key

variable {ds more : Diagnostics} {d : Diagnostic}

/-- A diagnostic goes to the end, unless its key is there. -/
theorem push_eq (ds : Diagnostics) (d : Diagnostic) :
    ds.push d = if d.key ∈ ds.keys then ds else ds ++ [d] := by
  have hany : ds.any (·.repeats d) = true ↔ d.key ∈ ds.keys := by
    simp [keys, Diagnostic.repeats_iff_key_eq]
  simp only [push, hany]

theorem push_of_mem_keys (h : d.key ∈ ds.keys) : ds.push d = ds := by
  rw [push_eq, if_pos h]

theorem push_of_not_mem_keys (h : d.key ∉ ds.keys) : ds.push d = ds ++ [d] := by
  rw [push_eq, if_neg h]

/-- Pushing adds the key of what is pushed, and no other. -/
theorem mem_keys_push {k : Severity × String × String} :
    k ∈ (ds.push d).keys ↔ k ∈ ds.keys ∨ k = d.key := by
  by_cases h : d.key ∈ ds.keys
  · rw [push_of_mem_keys h]
    exact ⟨.inl, fun hk => hk.elim id fun heq => heq ▸ h⟩
  · simp [push_of_not_mem_keys h, keys]

/-- Extending adds the keys of the other collection, and no others. -/
theorem mem_keys_extend {k : Severity × String × String} :
    k ∈ (ds.extend more).keys ↔ k ∈ ds.keys ∨ k ∈ more.keys := by
  induction more generalizing ds with
  | nil => simp [extend, keys]
  | cons d rest ih =>
    have hrest : k ∈ ((ds.push d).extend rest).keys ↔ k ∈ (ds.push d).keys ∨ k ∈ keys rest := ih
    rw [mem_keys_push, or_assoc] at hrest
    exact hrest.trans (or_congr_right List.mem_cons.symm)

/-- A collection that has nothing new to say adds nothing. -/
theorem extend_of_forall_mem_keys (h : ∀ d ∈ more, d.key ∈ ds.keys) : ds.extend more = ds := by
  induction more with
  | nil => rfl
  | cons d rest ih =>
    obtain ⟨hd, hrest⟩ := List.forall_mem_cons.mp h
    show (ds.push d).extend rest = ds
    rw [push_of_mem_keys hd, ih hrest]

/-! ## Nesting -/

theorem extend_append (ds more others : Diagnostics) :
    ds.extend (more ++ others) = (ds.extend more).extend others :=
  List.foldl_append

/-- What is pushed to a collection before it is added may as well be pushed after it. -/
theorem extend_push (ds more : Diagnostics) (d : Diagnostic) :
    ds.extend (more.push d) = (ds.extend more).push d := by
  by_cases h : d.key ∈ more.keys
  · -- the repeat is dropped in both places
    rw [push_of_mem_keys h, push_of_mem_keys (mem_keys_extend.mpr (.inr h))]
  · rw [push_of_not_mem_keys h, extend_append]
    rfl

/-- **Extending is associative.** -/
theorem extend_assoc (ds more others : Diagnostics) :
    (ds.extend more).extend others = ds.extend (more.extend others) := by
  induction others generalizing more with
  | nil => rfl
  | cons d rest ih =>
    show ((ds.extend more).push d).extend rest = ds.extend ((more.push d).extend rest)
    rw [← extend_push, ih]

/-! ## First occurrences -/

/-- The diagnostics whose key comes nowhere before them, in order. -/
def firstOccurrences (ds : List Diagnostic) : List Diagnostic :=
  ds.zipIdx.filterMap fun (d, i) => if d.key ∈ keys (ds.take i) then none else some d

/-- One more diagnostic is a first occurrence if its key is new, and makes no difference to those
before it. -/
theorem firstOccurrences_concat (ds : List Diagnostic) (d : Diagnostic) :
    firstOccurrences (ds ++ [d]) =
      firstOccurrences ds ++ if d.key ∈ keys ds then [] else [d] := by
  rw [firstOccurrences, List.zipIdx_append, List.filterMap_append, firstOccurrences]
  congr 1
  · refine List.filterMap_congr fun ⟨e, i⟩ hmem => ?_
    have hi : i < 0 + ds.length := (List.mem_zipIdx hmem).2.1
    have htake : (ds ++ [d]).take i = ds.take i := List.take_append_of_le_length (by omega)
    simp only [htake]
  · by_cases h : d.key ∈ keys ds <;> simp [h]

/-- The first occurrences are what is left when all are pushed, one after the other. -/
theorem extend_nil_eq_firstOccurrences (ds : List Diagnostic) :
    extend [] ds = firstOccurrences ds := by
  induction ds using List.reverseRecOn with
  | nil => rfl
  | append_singleton ds d ih =>
    have hkeys : d.key ∈ keys (extend [] ds) ↔ d.key ∈ keys ds :=
      mem_keys_extend.trans (or_iff_right List.not_mem_nil)
    rw [firstOccurrences_concat, extend_append, ← ih]
    show (extend [] ds).push d = _
    by_cases h : d.key ∈ keys ds
    · rw [push_of_mem_keys (hkeys.mpr h), if_pos h, List.append_nil]
    · rw [push_of_not_mem_keys (mt hkeys.mp h), if_neg h]

/-- No key comes twice in diagnostics that are pushed one after the other. -/
theorem nodup_keys_extend_nil (ds : List Diagnostic) : (keys (extend [] ds)).Nodup := by
  rw [extend_nil]
  refine List.pairwise_map.mpr ((pairwise_eraseDupsBy ds).imp fun h heq => ?_)
  rw [Diagnostic.repeats_iff_key_eq.mpr heq] at h
  cases h

end Diagnostics

/-! ## Gatherings -/

/-- How a collection of diagnostics comes about. What it is extended by is gathered likewise. -/
inductive Gathering where
  | empty
  | push (before : Gathering) (d : Diagnostic)
  | extend (before more : Gathering)

namespace Gathering

/-- The collection that comes about. -/
def collected : Gathering → Diagnostics
  | empty => []
  | push before d => before.collected.push d
  | extend before more => before.collected.extend more.collected

/-- All that is pushed, here or in what is added, in order. -/
def pushed : Gathering → List Diagnostic
  | empty => []
  | push before d => before.pushed ++ [d]
  | extend before more => before.pushed ++ more.pushed

/-- What comes about depends on what is pushed alone, and not on the nesting. -/
theorem collected_eq_extend_nil (b : Gathering) :
    b.collected = Diagnostics.extend [] b.pushed := by
  induction b with
  | empty => rfl
  | push before d ih =>
    rw [collected, ih, pushed, Diagnostics.extend_append]
    rfl
  | extend before more ih ihmore =>
    rw [collected, ih, ihmore, pushed, Diagnostics.extend_append, ← Diagnostics.extend_assoc]
    rfl

/-- **Diagnostics are the first occurrences, in order.** However a collection is gathered, it holds
what was pushed without everything whose severity, summary and detail came before, each with the
path of its first occurrence. So its keys are distinct, extending is associative, and extending by
what has no new key changes nothing. -/
theorem collected_eq_firstOccurrences (b : Gathering) :
    b.collected = Diagnostics.firstOccurrences b.pushed ∧
      b.collected.keys.Nodup ∧
      (∀ c e : Gathering, ((b.extend c).extend e).collected = (b.extend (c.extend e)).collected) ∧
      ∀ c : Gathering, (∀ d ∈ c.collected, d.key ∈ b.collected.keys) →
        (b.extend c).collected = b.collected := by
  refine ⟨?first, ?distinct, fun c e => ?assoc, fun c h => ?absorbed⟩
  case first => rw [collected_eq_extend_nil, Diagnostics.extend_nil_eq_firstOccurrences]
  case distinct =>
    rw [collected_eq_extend_nil]
    exact Diagnostics.nodup_keys_extend_nil b.pushed
  case assoc => exact Diagnostics.extend_assoc b.collected c.collected e.collected
  case absorbed => exact Diagnostics.extend_of_forall_mem_keys h

/-- A collection of what was pushed before at another place adds nothing, and the first place
stays. -/
theorem collected_extend_elsewhere :
    ((empty.push (.nonObject .string)).extend
        (empty.push { Diagnostic.nonObject .string with path := [.attr "id"] })).collected =
      [.nonObject .string] :=
  (collected_eq_firstOccurrences (empty.push (.nonObject .string))).2.2.2
    (empty.push { Diagnostic.nonObject .string with path := [.attr "id"] })
    (by simp [collected, Diagnostics.push, Diagnostics.keys, Diagnostic.key])

end Gathering

end ProviderMock
