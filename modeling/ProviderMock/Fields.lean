/-!
# Named fields in order

Objects, object types, schemas and settings all hold named things. They are kept as lists of
name–value pairs, in one of two disciplines:

* **declaration order** — `Fields.put` gives a new name the last position, and a name that is
  already there keeps its position and takes the new value; `Fields.ofList` puts pairs one after
  the other. The lists it builds are `Fields.Distinct`.
* **ascending order** — `Entries.insert` keeps the names sorted by code point, and again the last
  value of a name wins; `Entries.ofList` sorts a list that way. The lists it builds are
  `Entries.Ascending`.

Reading is `List.lookup` in both, and `Fields.lookup_put` and `Entries.lookup_insert` say what it
finds after a change.
-/

namespace ProviderMock

variable {α β : Type}

/-! ## Declaration order -/

namespace Fields

/-- The names, in order. -/
def names (fields : List (String × α)) : List String := fields.map Prod.fst

/-- No name occurs twice. -/
def Distinct (fields : List (String × α)) : Prop := (names fields).Nodup

instance (fields : List (String × α)) : Decidable (Distinct fields) :=
  inferInstanceAs (Decidable (names fields).Nodup)

/-- Whether a name is among the fields. -/
def has (fields : List (String × α)) (name : String) : Bool := (fields.lookup name).isSome

/-- Set a field: a name that is there keeps its position, a new one comes last. -/
def put : List (String × α) → String → α → List (String × α)
  | [], name, value => [(name, value)]
  | (n, v) :: rest, name, value =>
    if n = name then (n, value) :: rest else (n, v) :: put rest name value

/-- Put pairs one after the other: the first position and the last value of each name. -/
def ofList (pairs : List (String × α)) : List (String × α) :=
  pairs.foldl (fun fields pair => put fields pair.1 pair.2) []

/-- Apply a function to every value. -/
def mapValues (f : α → β) (fields : List (String × α)) : List (String × β) :=
  fields.map fun pair => (pair.1, f pair.2)

@[simp] theorem names_nil : names ([] : List (String × α)) = [] := rfl

@[simp] theorem names_cons (pair : String × α) (fields : List (String × α)) :
    names (pair :: fields) = pair.1 :: names fields := rfl

@[simp] theorem names_append (fields more : List (String × α)) :
    names (fields ++ more) = names fields ++ names more := List.map_append

@[simp] theorem names_mapValues (f : α → β) (fields : List (String × α)) :
    names (mapValues f fields) = names fields := by
  simp [names, mapValues]

/-- Reading looks at the first field first. -/
theorem lookup_cons (n : String) (v : α) (fields : List (String × α)) (name : String) :
    ((n, v) :: fields).lookup name = if name = n then some v else fields.lookup name := by
  rw [List.lookup_cons]
  by_cases h : name = n
  · rw [if_pos h, beq_iff_eq.mpr h]
  · rw [if_neg h, beq_false_of_ne h]

/-- What is read is there. -/
theorem mem_of_lookup {fields : List (String × α)} {name : String} {value : α}
    (h : fields.lookup name = some value) : (name, value) ∈ fields := by
  obtain ⟨before, after, rfl, -⟩ := List.lookup_eq_some_iff.mp h
  simp

/-- Exactly the names that are there can be read. -/
theorem has_iff {fields : List (String × α)} {name : String} :
    has fields name = true ↔ name ∈ names fields := by
  induction fields with
  | nil => simp [has]
  | cons pair rest ih =>
    obtain ⟨n, v⟩ := pair
    by_cases h : name = n
    · simp [has, h]
    · simpa [has, lookup_cons, h] using ih

/-- Applying a function to every value applies it to what is read. -/
theorem lookup_mapValues (f : α → β) (fields : List (String × α)) (name : String) :
    (mapValues f fields).lookup name = (fields.lookup name).map f := by
  induction fields with
  | nil => rfl
  | cons pair rest ih =>
    obtain ⟨n, v⟩ := pair
    rw [mapValues, List.map_cons, lookup_cons, lookup_cons]
    split
    · rfl
    · exact ih

/-- Of distinct names every field that is there is read. -/
theorem lookup_of_mem {fields : List (String × α)} (h : Distinct fields) {name : String} {value : α}
    (hmem : (name, value) ∈ fields) : fields.lookup name = some value := by
  induction fields with
  | nil => cases hmem
  | cons pair rest ih =>
    obtain ⟨n, v⟩ := pair
    obtain ⟨hn, hrest⟩ := List.nodup_cons.mp h
    rw [lookup_cons]
    rcases List.mem_cons.mp hmem with heq | hmem
    · cases heq
      exact if_pos rfl
    · have hname : name ∈ names rest := List.mem_map_of_mem (f := Prod.fst) hmem
      have hne : name ≠ n := fun heq => hn (heq ▸ hname)
      rw [if_neg hne]
      exact ih hrest hmem

/-- A field that was put is read back, and the others are as before. -/
theorem lookup_put (fields : List (String × α)) (name : String) (value : α) (other : String) :
    (put fields name value).lookup other =
      if other = name then some value else fields.lookup other := by
  induction fields with
  | nil => simp [put, lookup_cons]
  | cons pair rest ih =>
    obtain ⟨n, v⟩ := pair
    by_cases hn : n = name
    · subst hn
      by_cases h : other = n <;> simp [put, lookup_cons, h]
    · by_cases h : other = n
      · subst h
        simp [put, hn]
      · simp [put, hn, lookup_cons, h, ih]

/-- Putting a field keeps the order of names and adds a new name at the end. -/
theorem names_put (fields : List (String × α)) (name : String) (value : α) :
    names (put fields name value) =
      if name ∈ names fields then names fields else names fields ++ [name] := by
  induction fields with
  | nil => simp [put]
  | cons pair rest ih =>
    obtain ⟨n, v⟩ := pair
    by_cases hn : n = name
    · simp [put, hn]
    · have hn' : ¬ name = n := fun h => hn h.symm
      by_cases h : name ∈ names rest <;> simp [put, hn, hn', ih, h]

/-- Putting a field keeps names distinct. -/
theorem distinct_put {fields : List (String × α)} (h : Distinct fields) (name : String)
    (value : α) : Distinct (put fields name value) := by
  unfold Distinct at h ⊢
  rw [names_put]
  split
  · exact h
  · rename_i hn
    refine List.nodup_append.mpr ⟨h, by simp, fun a ha b hb => ?_⟩
    rw [List.mem_singleton.mp hb]
    exact fun heq => hn (heq ▸ ha)

/-- A new name goes to the end. -/
theorem put_of_not_mem {fields : List (String × α)} {name : String} (h : name ∉ names fields)
    (value : α) : put fields name value = fields ++ [(name, value)] := by
  induction fields with
  | nil => rfl
  | cons pair rest ih =>
    obtain ⟨n, v⟩ := pair
    rw [names_cons, List.mem_cons, not_or] at h
    have hn : ¬ n = name := fun heq => h.1 heq.symm
    rw [put, if_neg hn, ih h.2]
    rfl

/-- Putting pairs one after the other makes names distinct. -/
theorem distinct_ofList (pairs : List (String × α)) : Distinct (ofList pairs) := by
  -- from any fields with distinct names on, not from none at all
  have aux : ∀ (pairs fields : List (String × α)), Distinct fields →
      Distinct (pairs.foldl (fun fields pair => put fields pair.1 pair.2) fields) := by
    intro pairs
    induction pairs with
    | nil => exact fun _ h => h
    | cons pair rest ih => exact fun fields h => ih _ (distinct_put h pair.1 pair.2)
  exact aux pairs [] List.nodup_nil

/-- Pairs with distinct names stay as they are. -/
theorem ofList_eq_self {pairs : List (String × α)} (h : Distinct pairs) : ofList pairs = pairs := by
  -- each pair that is put is new, so it goes to the end
  have aux : ∀ (pairs fields : List (String × α)), Distinct (fields ++ pairs) →
      pairs.foldl (fun fields pair => put fields pair.1 pair.2) fields = fields ++ pairs := by
    intro pairs
    induction pairs with
    | nil => simp
    | cons pair rest ih =>
      obtain ⟨n, v⟩ := pair
      intro fields h
      have hn : n ∉ names fields := by
        intro hmem
        rw [Distinct, names_append] at h
        exact (List.nodup_append.mp h).2.2 n hmem n List.mem_cons_self rfl
      rw [List.foldl_cons, put_of_not_mem hn, ih _ (by simpa using h)]
      simp
  exact aux pairs [] h

end Fields

/-! ## Ascending order -/

namespace Entries

/-- The names ascend strictly, by code point. -/
def Ascending (entries : List (String × α)) : Prop :=
  (Fields.names entries).Pairwise (· < ·)

instance (entries : List (String × α)) : Decidable (Ascending entries) :=
  inferInstanceAs (Decidable (List.Pairwise _ _))

/-- Set an entry at its place in ascending order. -/
def insert : List (String × α) → String → α → List (String × α)
  | [], name, value => [(name, value)]
  | (n, v) :: rest, name, value =>
    if n = name then (n, value) :: rest
    else if name < n then (name, value) :: (n, v) :: rest
    else (n, v) :: insert rest name value

/-- The pairs in ascending order of name, with the last value of each name. -/
def ofList (pairs : List (String × α)) : List (String × α) :=
  pairs.foldl (fun entries pair => insert entries pair.1 pair.2) []

/-- An entry that was inserted is read back, and the others are as before. -/
theorem lookup_insert (entries : List (String × α)) (name : String) (value : α) (other : String) :
    (insert entries name value).lookup other =
      if other = name then some value else entries.lookup other := by
  induction entries with
  | nil => simp [insert, Fields.lookup_cons]
  | cons pair rest ih =>
    obtain ⟨n, v⟩ := pair
    by_cases hn : n = name
    · subst hn
      by_cases h : other = n <;> simp [insert, Fields.lookup_cons, h]
    · by_cases hlt : name < n
      · simp [insert, Fields.lookup_cons, hn, hlt]
      · by_cases h : other = n
        · subst h
          simp [insert, hn, hlt]
        · simp [insert, hn, hlt, Fields.lookup_cons, h, ih]

/-- Inserting adds its own name and no other. -/
theorem mem_names_insert {entries : List (String × α)} {name : String} {value : α}
    {other : String} :
    other ∈ Fields.names (insert entries name value) ↔
      other = name ∨ other ∈ Fields.names entries := by
  rw [← Fields.has_iff, ← Fields.has_iff, Fields.has, Fields.has, lookup_insert]
  by_cases h : other = name <;> simp [h]

/-- Inserting keeps names ascending. -/
theorem ascending_insert {entries : List (String × α)} (h : Ascending entries) (name : String)
    (value : α) : Ascending (insert entries name value) := by
  induction entries with
  | nil => simp [insert, Ascending]
  | cons pair rest ih =>
    obtain ⟨n, v⟩ := pair
    obtain ⟨hn, hrest⟩ := List.pairwise_cons.mp h
    rw [insert]
    split
    · -- the first name is the one inserted: no name changes
      exact h
    · rename_i hne
      split
      · -- the name goes before the first, and by transitivity before all others
        rename_i hlt
        refine List.pairwise_cons.mpr ⟨fun other hmem => ?_, h⟩
        rcases List.mem_cons.mp hmem with rfl | hmem
        · exact hlt
        · exact String.lt_trans hlt (hn other hmem)
      · -- the name goes after the first, which still precedes all others
        rename_i hle
        have hlt : n < name := Std.lt_of_le_of_ne (String.not_lt.mp hle) hne
        refine List.pairwise_cons.mpr ⟨fun other hmem => ?_, ih hrest⟩
        rcases mem_names_insert.mp hmem with rfl | hmem
        · exact hlt
        · exact hn other hmem

/-- Sorting makes names ascend. -/
theorem ascending_ofList (pairs : List (String × α)) : Ascending (ofList pairs) := by
  have aux : ∀ (pairs entries : List (String × α)), Ascending entries →
      Ascending (pairs.foldl (fun entries pair => insert entries pair.1 pair.2) entries) := by
    intro pairs
    induction pairs with
    | nil => exact fun _ h => h
    | cons pair rest ih => exact fun entries h => ih _ (ascending_insert h pair.1 pair.2)
  exact aux pairs [] List.Pairwise.nil

/-- Ascending names are distinct. -/
theorem Ascending.distinct {entries : List (String × α)} (h : Ascending entries) :
    Fields.Distinct entries :=
  List.Pairwise.imp (fun {a b} (hlt : a < b) (heq : a = b) => String.lt_irrefl b (heq ▸ hlt)) h

end Entries

end ProviderMock
