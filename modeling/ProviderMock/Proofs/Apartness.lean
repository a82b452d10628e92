import ProviderMock.Proofs.Extensionality
import ProviderMock.Proofs.Readings

/-!
# Sets without equal elements

Nothing in the type of a set keeps equal elements out of it. `Value.isRepetitionFree` says that no
set in a value has two elements of which one equals the other, and it is kept by everything that
makes a value out of others.

* **one operation** — `Value.proper_iff_isRepetitionFree`: for well-formed values this is to be
  proper, and `Value.Proper.list`, `Value.Proper.convert`, `Context.proper_block` and their like say
  of each operation that it makes proper values of proper ones.
* **any number of them** — `Value.Obtained` is what can be obtained from given values by operations,
  in any order, and `Value.isRepetitionFree_of_obtained` is the run: none of it ever has a set with
  equal elements.
-/

namespace ProviderMock

namespace Value

/-! ## Tests all through a value -/

/-- A property that passes from a value to its parts brings a test with it everywhere. -/
theorem everywhere_of_hereditary {P : Value → Prop} {test : Value → Bool}
    (hparts : ∀ v, P v → ∀ w ∈ v.parts, P w) (htest : ∀ v, P v → test v = true) {v : Value}
    (hv : P v) : v.everywhere test = true := by
  induction v using Value.induction with
  | list t elements ih | set t elements ih =>
    exact everywhere_iff.mpr ⟨htest _ hv, fun w hw => ih w hw (hparts _ hv w hw)⟩
  | map t fields ih | object fields ih =>
    refine everywhere_iff.mpr ⟨htest _ hv, fun w hw => ?_⟩
    obtain ⟨field, hfield, rfl⟩ := List.mem_map.mp hw
    exact ih field hfield (hparts _ hv _ hw)
  | _ => exact everywhere_iff.mpr ⟨htest _ hv, fun _ hw => absurd hw List.not_mem_nil⟩

/-- Whether a value is no set with two elements of which one equals the other. -/
def holdsUnequal : Value → Bool
  | .set _ elements => decide (elements.Pairwise fun v w => v.same w = false ∧ w.same v = false)
  | _ => true

/-- Whether no set in a value has two elements of which one equals the other. -/
def isRepetitionFree (v : Value) : Bool := v.everywhere holdsUnequal

/-- In a well-formed value elements that are apart one way are apart both ways. -/
theorem Proper.isRepetitionFree {v : Value} (hv : v.Proper) : v.isRepetitionFree = true := by
  refine everywhere_of_hereditary (fun v hv w hw => hv.of_mem_parts hw) (fun v hv => ?_) hv
  cases v with
  | set t elements =>
    refine decide_eq_true (hv.pairwise.imp_of_mem fun hmem hmem' hapart => ⟨hapart, ?_⟩)
    -- an equality the other way round could be turned
    exact Bool.eq_false_iff.mpr fun hsame =>
      Bool.eq_false_iff.mp hapart (same_symm (hv.of_mem_parts hmem') (hv.of_mem_parts hmem) hsame)
  | _ => rfl

/-- The proper values are those that are well-formed and free of repetitions. -/
theorem proper_iff_isRepetitionFree {v : Value} :
    v.Proper ↔ v.isWellFormed = true ∧ v.isRepetitionFree = true := by
  refine ⟨fun hv => ⟨hv.wellFormed, hv.isRepetitionFree⟩, fun ⟨hv, hfree⟩ => ⟨hv, ?_⟩⟩
  refine everywhere_of_hereditary (P := fun v => v.isRepetitionFree = true)
    (fun v hv w hw => (everywhere_iff.mp hv).2 w hw) (fun v hv => ?_) hfree
  cases v with
  | set t elements =>
    have hunequal : elements.Pairwise fun v w => v.same w = false ∧ w.same v = false :=
      decide_eq_true_iff.mp (everywhere_iff.mp hv).1
    exact decide_eq_true (hunequal.imp fun h => h.1)
  | _ => rfl

/-! ## One operation -/

/-- Whether the names of a value are in order, and it is no set with equal elements. -/
def isProperHere (v : Value) : Bool := v.isOrdered && v.holdsApart

/-- A value is proper if it passes one robust test everywhere. -/
theorem proper_iff_everywhere {v : Value} : v.Proper ↔ v.everywhere isProperHere = true := by
  rw [proper_iff]
  constructor
  · intro hv
    refine everywhere_of_hereditary
      (P := fun v => v.everywhere isOrdered = true ∧ v.everywhere holdsApart = true)
      (fun v hv w hw => ⟨(everywhere_iff.mp hv.1).2 w hw, (everywhere_iff.mp hv.2).2 w hw⟩)
      (fun v hv => Bool.and_eq_true_iff.mpr ⟨(everywhere_iff.mp hv.1).1,
        (everywhere_iff.mp hv.2).1⟩) hv
  · intro hv
    have hboth : ∀ v : Value, v.everywhere isProperHere = true →
        v.isOrdered = true ∧ v.holdsApart = true :=
      fun v hv => Bool.and_eq_true_iff.mp (everywhere_iff.mp hv).1
    have hparts : ∀ v : Value, v.everywhere isProperHere = true →
        ∀ w ∈ v.parts, w.everywhere isProperHere = true := fun v hv => (everywhere_iff.mp hv).2
    exact ⟨everywhere_of_hereditary hparts (fun v hv => (hboth v hv).1) hv,
      everywhere_of_hereditary hparts (fun v hv => (hboth v hv).2) hv⟩

theorem robust_isProperHere : Robust isProperHere where
  null _ ht := Bool.and_eq_true_iff.mpr ⟨ht, rfl⟩
  unknown _ _ _ hu := Bool.and_eq_true_iff.mpr ⟨hu, rfl⟩
  string _ := rfl
  number _ _ := rfl
  bool _ := rfl
  list t elements ht := Bool.and_eq_true_iff.mpr ⟨robust_isOrdered.list t elements ht, rfl⟩
  set t elements ht := Bool.and_eq_true_iff.mpr
    ⟨robust_isOrdered.set t elements ht, robust_holdsApart.set t elements ht⟩
  map t entries ht := Bool.and_eq_true_iff.mpr ⟨robust_isOrdered.map t entries ht, rfl⟩
  object fields h := Bool.and_eq_true_iff.mpr ⟨robust_isOrdered.object fields h, rfl⟩

theorem Proper.list {t : Ty} {elements : List Value} (ht : t.isWellFormed = true)
    (h : ∀ e ∈ elements, e.Proper) : (Value.list t elements).Proper :=
  proper_iff_everywhere.mpr (everywhere_iff.mpr ⟨robust_isProperHere.list t elements ht,
    fun e he => proper_iff_everywhere.mp (h e he)⟩)

theorem Proper.setOf {t : Ty} {elements : List Value} (ht : t.isWellFormed = true)
    (h : ∀ e ∈ elements, e.Proper) : (setOf t elements).Proper :=
  proper_iff_everywhere.mpr (everywhere_setOf (robust_isProperHere.set t elements ht)
    fun e he => proper_iff_everywhere.mp (h e he))

theorem Proper.mapOf {t : Ty} {entries : List (String × Value)} (ht : t.isWellFormed = true)
    (h : ∀ e ∈ entries, e.2.Proper) : (mapOf t entries).Proper :=
  proper_iff_everywhere.mpr (everywhere_mapOf (robust_isProperHere.map t entries ht)
    fun e he => proper_iff_everywhere.mp (h e he))

theorem Proper.ofFields {fields : List (String × Value)} (h : ∀ f ∈ fields, f.2.Proper) :
    (ofFields fields).Proper :=
  proper_iff_everywhere.mpr (everywhere_object
    (robust_isProperHere.object _ (Fields.distinct_ofList fields))
    fun f hf => proper_iff_everywhere.mp (h f (Fields.mem_of_mem_ofList hf)))

/-- The type of the first of proper values is well-formed. -/
theorem Proper.isWellFormed_firstType {values : List Value} (h : ∀ v ∈ values, v.Proper) :
    (firstType values).isWellFormed = true := by
  cases values with
  | nil => rfl
  | cons v rest => exact isWellFormed_ty (h v List.mem_cons_self).wellFormed

/-- The type of the first of proper entries in order of keys is well-formed. -/
theorem Proper.isWellFormed_firstEntryType {entries : List (String × Value)}
    (h : ∀ e ∈ entries, e.2.Proper) :
    (firstType ((Entries.ofList entries).map Prod.snd)).isWellFormed = true := by
  refine Proper.isWellFormed_firstType fun v hv => ?_
  obtain ⟨entry, hentry, rfl⟩ := List.mem_map.mp hv
  exact h entry (Entries.mem_of_mem_ofList hentry)

theorem Proper.convert {t : Ty} {v w : Value} (hv : v.Proper) (ht : t.isWellFormed = true)
    (h : v.convert t = .ok w) : w.Proper :=
  proper_iff_everywhere.mpr (robust_isProperHere.convert h ht (proper_iff_everywhere.mp hv))

theorem proper_of_infer {json : Json} {v : Value} (hjson : json.isData = true)
    (h : Value.infer json = .ok v) : v.Proper :=
  proper_iff_everywhere.mpr (robust_isProperHere.infer h hjson).2

theorem proper_generate {t : Ty} (ht : t.isWellFormed = true) (g : Generator) :
    (g.generate t).1.Proper :=
  proper_iff_everywhere.mpr (robust_isProperHere.generate ht g)

end Value

namespace Synthesis

open Value (Proper)

variable {mode : Mode} {schema : Block}

/-- A walk along a block makes a proper value of a proper target and a proper replacement. -/
theorem Context.proper_block (context : Context) (hschema : schema.isWellFormed = true)
    {target : Value} (htarget : target.Proper) {r : Option Value} (hr : ∀ x ∈ r, x.Proper)
    (path : Path) (p : Progress) : (context.block schema target r path p).1.Proper :=
  Context.proper_object (Part.allWellFormed_iff.mp (Block.wellFormed_parts schema hschema)) htarget
    hr path p

/-- A synthesis makes a proper value of a proper target and a proper replacement. -/
theorem proper_synthesize (hschema : schema.isWellFormed = true) {target : Value}
    (htarget : target.Proper) {r : Replacement} (hr : ∀ x ∈ r.value, x.Proper) (g : Generator) :
    (synthesize mode schema target r g).value.Proper :=
  (⟨mode, r.range⟩ : Context).proper_block hschema htarget
    (fun x hx => hr x (Replacement.mem_of_mem_usable hx)) Path.root ⟨g, []⟩

end Synthesis

/-! ## Any number of operations -/

namespace Value

/-- A value that is obtained from given ones, which are well-formed and free of repetitions, by
operations in any order: construction, conversion, reading of data, generation and synthesis. A set
is only made by collecting its elements. -/
inductive Obtained : Value → Prop where
  | given {v : Value} (hv : v.isWellFormed = true) (hfree : v.isRepetitionFree = true) : Obtained v
  | null {t : Ty} (ht : t.isWellFormed = true) : Obtained (.null t)
  | unknown {t : Ty} (ht : t.isWellFormed = true) : Obtained (.unknown t)
  | string (s : String) : Obtained (.string s)
  | number (x : Double) : Obtained (.number x)
  | bool (b : Bool) : Obtained (.bool b)
  | list {t : Ty} {elements : List Value} (ht : t.isWellFormed = true)
      (h : ∀ e ∈ elements, Obtained e) : Obtained (.list t elements)
  | listOfFirst {elements : List Value} (h : ∀ e ∈ elements, Obtained e) :
      Obtained (listOfFirst elements)
  | setOf {t : Ty} {elements : List Value} (ht : t.isWellFormed = true)
      (h : ∀ e ∈ elements, Obtained e) : Obtained (setOf t elements)
  | setOfFirst {elements : List Value} (h : ∀ e ∈ elements, Obtained e) :
      Obtained (setOfFirst elements)
  | emptySet {t : Ty} (ht : t.isWellFormed = true) : Obtained (.set t [])
  | mapOf {t : Ty} {entries : List (String × Value)} (ht : t.isWellFormed = true)
      (h : ∀ e ∈ entries, Obtained e.2) : Obtained (mapOf t entries)
  | mapOfFirst {entries : List (String × Value)} (h : ∀ e ∈ entries, Obtained e.2) :
      Obtained (mapOfFirst entries)
  | ofFields {fields : List (String × Value)} (h : ∀ f ∈ fields, Obtained f.2) :
      Obtained (ofFields fields)
  | convert {t : Ty} {v w : Value} (ht : t.isWellFormed = true) (hv : Obtained v)
      (h : v.convert t = .ok w) : Obtained w
  | decode {t : Ty} {json : Json} {v : Value} (ht : t.isWellFormed = true)
      (hjson : json.isData = true) (h : Value.decode t json = .ok v) : Obtained v
  | infer {json : Json} {v : Value} (hjson : json.isData = true) (h : Value.infer json = .ok v) :
      Obtained v
  | generate {t : Ty} (ht : t.isWellFormed = true) (g : Generator) : Obtained (g.generate t).1
  | block {context : Synthesis.Context} {schema : Block} (hschema : schema.isWellFormed = true)
      {target : Value} (htarget : Obtained target) {r : Option Value} (hr : ∀ x ∈ r, Obtained x)
      (path : Path) (p : Progress) : Obtained (context.block schema target r path p).1
  | synthesize {mode : Mode} {schema : Block} (hschema : schema.isWellFormed = true)
      {target : Value} (htarget : Obtained target) {r : Replacement}
      (hr : ∀ x ∈ r.value, Obtained x) (g : Generator) :
      Obtained (ProviderMock.synthesize mode schema target r g).value

/-- What is obtained is proper. -/
theorem Obtained.proper {v : Value} (h : v.Obtained) : v.Proper := by
  induction h with
  | given hv hfree => exact proper_iff_isRepetitionFree.mpr ⟨hv, hfree⟩
  | null ht | unknown ht => exact ⟨ht, rfl⟩
  | string s | number x | bool b => exact ⟨rfl, rfl⟩
  | list ht _ ih => exact .list ht ih
  | listOfFirst _ ih => exact .list (Proper.isWellFormed_firstType ih) ih
  | setOf ht _ ih => exact .setOf ht ih
  | setOfFirst _ ih => exact .setOf (Proper.isWellFormed_firstType ih) ih
  | @emptySet t ht =>
    have hset : (Value.setOf t []).Proper := .setOf ht fun _ he => absurd he List.not_mem_nil
    exact hset
  | mapOf ht _ ih => exact .mapOf ht ih
  | mapOfFirst _ ih => exact .mapOf (Proper.isWellFormed_firstEntryType ih) ih
  | ofFields _ ih => exact .ofFields ih
  | convert ht _ h ih => exact ih.convert ht h
  | decode ht hjson h => exact proper_of_decode h ht hjson
  | infer hjson h => exact proper_of_infer hjson h
  | generate ht g => exact proper_generate ht g
  | block hschema _ _ path p htarget hr =>
    exact Synthesis.Context.proper_block _ hschema htarget hr path p
  | synthesize hschema _ _ g htarget hr => exact Synthesis.proper_synthesize hschema htarget hr g

/-- **No operation makes a set with equal elements.** Whatever is obtained from well-formed values
that are free of repetitions, by constructors, conversion, reading, generation and synthesis in any
mode, is again well-formed, and no two elements of any set in it are equal. -/
theorem isRepetitionFree_of_obtained {v : Value} (h : v.Obtained) :
    v.isWellFormed = true ∧ v.isRepetitionFree = true :=
  proper_iff_isRepetitionFree.mp h.proper

/-! ### A rack -/

/-- The schema of a rack: a set of disks with serial numbers. -/
def rack : Block := .mk [] [("disk", .many .set, .mk [("serial", .plain .string true)] [])]

/-- A disk. -/
def diskWith (serial : Value) : Value := ofFields [("serial", serial)]

/-- A rack with two disks, of which one has no serial number yet. -/
def halfRack : Value :=
  ofFields [("disk", setOfFirst [diskWith (.null .string), diskWith (.string "s")])]

/-- The serial number that the other disk has already. -/
def takenSerial : Replacement :=
  ⟨some (ofFields [("disk", diskWith (.string "s"))]), SourceRange.unspecified⟩

/-- Two disks that become equal are one element of what is obtained. -/
theorem isRepetitionFree_of_obtained_halfRack :
    (readDataSource rack halfRack takenSerial (Generator.seeded 0)).value.Obtained ∧
      (readDataSource rack halfRack takenSerial (Generator.seeded 0)).value.isWellFormed = true ∧
      (readDataSource rack halfRack takenSerial (Generator.seeded 0)).value.isRepetitionFree =
        true := by
  have hdisk : ∀ v : Value, v.Obtained → (diskWith v).Obtained :=
    fun v hv => .ofFields (List.forall_mem_singleton.mpr hv)
  have htarget : halfRack.Obtained :=
    .ofFields (List.forall_mem_singleton.mpr (.setOfFirst
      (List.forall_mem_cons.mpr ⟨hdisk _ (.null rfl),
        List.forall_mem_singleton.mpr (hdisk _ (.string "s"))⟩)))
  have hr : ∀ x ∈ takenSerial.value, x.Obtained := by
    rintro _ ⟨⟩
    exact .ofFields (List.forall_mem_singleton.mpr (hdisk _ (.string "s")))
  have h : (readDataSource rack halfRack takenSerial (Generator.seeded 0)).value.Obtained :=
    .synthesize (by decide) htarget hr _
  exact ⟨h, isRepetitionFree_of_obtained h⟩

example : (readDataSource rack halfRack takenSerial (Generator.seeded 0)).value =
    .object [("disk", .set (.object [("serial", .string)]) [diskWith (.string "s")])] := by rfl

end Value

end ProviderMock
