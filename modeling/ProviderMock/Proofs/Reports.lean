import Mathlib.Data.List.Perm.Subperm
import ProviderMock.Proofs.Messages
import ProviderMock.Proofs.Occurrences
import ProviderMock.Proofs.Visits

/-!
# What a synthesis reports

At a visit a walk may find something wrong with the replacement: nested objects whose replacement
has no object type, or an unset computed leaf whose replacement does not convert. `Context.report?`
is what it reports then. It depends on the visit alone, so the reports of a walk can be told from
its visits.

The replacement is the same for all elements of a collection, and so is what is wrong with it; a
report is kept once for its position. Messages name positions and nothing more exact, and with plain
names they tell positions apart, so this is what dropping repeats comes to.

* **one visit** — `Context.diagnostics_after`: a visit adds its report to those before.
* **a whole walk** — `Context.diagnostics_foldl_after` and `diagnostics_synthesize`: the diagnostics
  are the reports at the visits, without repeats.
* **positions** — `Context.detail_report?_eq_iff`: two reports of a walk say the same if and only if
  they are about one position. `diagnostics_eq_reports`: the first report of each position is kept.
-/

namespace ProviderMock

/-! ## Positions of a schema -/

mutual

/-- The positions of the fields that a field holds, at any depth. -/
def Part.positions : Part → List (List String)
  | .leaf _ _ => []
  | .nested _ parts => Part.fieldPositions parts
termination_by structural p => p

/-- The positions of fields and of what they hold. -/
def Part.fieldPositions : List (String × Part) → List (List String)
  | [] => []
  | (name, part) :: rest => [name] :: part.positions.map (name :: ·) ++ Part.fieldPositions rest
termination_by structural ps => ps

end

/-- The positions of all attributes and nested blocks of a block, at any depth. -/
def Block.positions (b : Block) : List (List String) := b.root.positions

/-- Whether all names of attributes and nested blocks, at any depth, are plain. -/
def Block.hasPlainNames (b : Block) : Bool := b.positions.all fun names => names.all isPlainName

theorem Part.mem_fieldPositions {parts : List (String × Part)} {position : List String} :
    position ∈ fieldPositions parts ↔ ∃ part ∈ parts,
      position = [part.1] ∨ ∃ names ∈ part.2.positions, position = part.1 :: names := by
  induction parts with
  | nil => simp [fieldPositions]
  | cons part rest ih => simp [fieldPositions, ih, eq_comm, or_assoc]

/-- What is declared at some place has a position, unless it is the whole. -/
theorem Part.mem_positions_of_part? {part q : Part} {names : List String}
    (h : part.part? names = some q) : names = [] ∨ names ∈ part.positions := by
  induction names generalizing part with
  | nil => exact .inl rfl
  | cons name rest ih =>
    right
    cases part with
    | leaf t computed => cases h
    | nested nesting parts =>
      obtain ⟨p, hp, h⟩ := Option.bind_eq_some_iff.mp h
      refine mem_fieldPositions.mpr ⟨(name, p), Fields.mem_of_lookup hp, ?_⟩
      exact (ih h).imp (fun hnil => by rw [hnil]) fun hmem => ⟨rest, hmem, rfl⟩

/-- A visit is no nearer to the root than the field whose walk it belongs to. -/
theorem Part.position_of_mem_visits {part : Part} {target : Value} {path : Path} {visit : Visit}
    (h : visit ∈ part.visits target path) : path.attributeNames <+: visit.position := by
  induction part using Part.induction generalizing target path with
  | leaf t computed =>
    obtain rfl := List.mem_singleton.mp h
    exact List.prefix_rfl
  | nested nesting parts ih =>
    rcases Part.mem_visits_nested.mp h with rfl | ⟨object, hobject, h⟩
    · exact List.prefix_rfl
    · obtain ⟨part, hpart, h⟩ := Part.mem_visitsFields.mp h
      have hprefix := ih part hpart h
      rw [Path.attributeNames_attr, Nesting.attributeNames_objects nesting target path _ hobject]
        at hprefix
      exact (List.prefix_append _ _).trans hprefix

/-- Every visit of a walk along a block is at a position of the block. -/
theorem Block.mem_positions_of_mem_visits {schema : Block} (hschema : schema.isWellFormed = true)
    (hunambiguous : schema.isUnambiguous = true) {target : Value} {visit : Visit}
    (h : visit ∈ schema.visits target) :
    visit.position ≠ [] ∧ visit.position ∈ schema.positions := by
  obtain ⟨part, hpart, hvisit⟩ := Part.mem_visitsFields.mp h
  have hnil : visit.position ≠ [] := by
    intro hnil
    have hprefix := Part.position_of_mem_visits hvisit
    rw [hnil] at hprefix
    exact absurd (List.prefix_nil.mp hprefix) (by simp)
  exact ⟨hnil, (Part.mem_positions_of_part?
    (Block.part?_of_mem_visits hschema hunambiguous h)).resolve_left hnil⟩

/-! ## Reports -/

namespace Synthesis

namespace Context

variable {context : Context} {r : Option Value}

/-- What is reported of a computed leaf: that it is unset, and that the replacement does not
convert. A null in the replacement is as good as nothing. -/
def mismatch? (context : Context) (t : Ty) (target : Value) (r : Option Value) (path : Path) :
    Option Diagnostic :=
  if context.mode.isUnset target then
    match r.filter (fun x => !x.isNull) with
    | none => none
    | some x =>
      match x.convert t with
      | .ok _ => none
      | .error e => some (.typeMismatch t path context.range e)
  else none

/-- What is reported of nested objects: that the replacement has no object type. A null in it is as
good as nothing. -/
def misshape? (context : Context) (r : Option Value) (path : Path) : Option Diagnostic :=
  match r.filter (fun x => !x.isNull) with
  | none => none
  | some x => if x.isObject then none else some (.nestedShape path context.range x.ty)

/-- What is reported at a visit of a walk with a replacement. -/
def report? (context : Context) (r : Option Value) (visit : Visit) : Option Diagnostic :=
  match visit.part with
  | .leaf t computed =>
    if computed then context.mismatch? t visit.target (visit.path.partOf r) visit.path else none
  | .nested _ _ => context.misshape? (visit.path.partOf r) visit.path

theorem mismatch?_eq_some_iff {t : Ty} {target : Value} {path : Path} {d : Diagnostic} :
    context.mismatch? t target r path = some d ↔ context.mode.isUnset target = true ∧
      ∃ x e, r.filter (fun x => !x.isNull) = some x ∧ x.convert t = .error e ∧
        d = .typeMismatch t path context.range e := by
  constructor
  · intro h
    unfold mismatch? at h
    split at h
    · rename_i hunset
      split at h
      · cases h
      · rename_i x hx
        split at h
        · cases h
        · rename_i e he
          exact ⟨hunset, x, e, hx, he, (Option.some.inj h).symm⟩
    · cases h
  · rintro ⟨hunset, x, e, hx, he, rfl⟩
    simp only [mismatch?, if_pos hunset, hx, he]

theorem misshape?_eq_some_iff {path : Path} {d : Diagnostic} :
    context.misshape? r path = some d ↔ ∃ x, r.filter (fun x => !x.isNull) = some x ∧
      x.isObject = false ∧ d = .nestedShape path context.range x.ty := by
  constructor
  · intro h
    unfold misshape? at h
    split at h
    · cases h
    · rename_i x hx
      split at h
      · cases h
      · rename_i hobject
        exact ⟨x, hx, Bool.eq_false_iff.mpr hobject, (Option.some.inj h).symm⟩
  · rintro ⟨x, hx, hobject, rfl⟩
    simp [misshape?, hx, hobject]

/-- What is reported is that nested objects have no replacement of an object type, or that an unset
computed leaf has one that does not convert. -/
theorem report?_cases {visit : Visit} {d : Diagnostic} (h : context.report? r visit = some d) :
    (∃ nesting parts x, visit.part = .nested nesting parts ∧
      (visit.path.partOf r).filter (fun x => !x.isNull) = some x ∧ x.isObject = false ∧
      d = .nestedShape visit.path context.range x.ty) ∨
    ∃ t x e, visit.part = .leaf t true ∧ context.mode.isUnset visit.target = true ∧
      (visit.path.partOf r).filter (fun x => !x.isNull) = some x ∧ x.convert t = .error e ∧
      d = .typeMismatch t visit.path context.range e := by
  obtain ⟨path, part, target⟩ := visit
  cases part with
  | leaf t computed =>
    cases computed with
    | false => cases h
    | true =>
      obtain ⟨hunset, x, e, hx, he, rfl⟩ := mismatch?_eq_some_iff.mp h
      exact .inr ⟨t, x, e, rfl, hunset, hx, he, rfl⟩
  | nested nesting parts =>
    obtain ⟨x, hx, hobject, rfl⟩ := misshape?_eq_some_iff.mp h
    exact .inl ⟨nesting, parts, x, rfl, hx, hobject, rfl⟩

/-- What is reported at a visit is reported for its path. -/
theorem path_of_report? {visit : Visit} {d : Diagnostic} (h : context.report? r visit = some d) :
    d.path = visit.path := by
  rcases report?_cases h with ⟨_, _, _, -, -, -, rfl⟩ | ⟨_, _, _, -, -, -, -, rfl⟩ <;> rfl

/-- Reports that have the same detail are repeats. -/
theorem repeats_iff_of_report? {visit other : Visit} {d e : Diagnostic}
    (hd : context.report? r visit = some d) (he : context.report? r other = some e) :
    d.repeats e = true ↔ d.detail = e.detail := by
  -- all reports have one summary, and there is one severity only
  have hsummary : ∀ {visit : Visit} {d : Diagnostic}, context.report? r visit = some d →
      d.summary = Diagnostic.invalidReplacement := by
    intro visit d h
    rcases report?_cases h with ⟨_, _, _, -, -, -, rfl⟩ | ⟨_, _, _, -, -, -, -, rfl⟩ <;> rfl
  rw [Diagnostic.repeats_iff]
  exact ⟨fun h => h.2.2, fun h => ⟨rfl, (hsummary hd).trans (hsummary he).symm, h⟩⟩

/-- What a leaf falls back to is not reported. -/
theorem diagnostics_fallback (t : Ty) (p : Progress) :
    (context.fallback t p).2.diagnostics = p.diagnostics := by
  obtain ⟨mode, range⟩ := context
  cases mode <;> rfl

/-- Filling a leaf adds its report to those before. -/
theorem diagnostics_leaf (t : Ty) (target : Value) (r : Option Value) (path : Path) (p : Progress) :
    (context.leaf t target r path p).2.diagnostics =
      p.diagnostics.extend (context.mismatch? t target r path).toList := by
  unfold mismatch?
  split
  · rename_i hunset
    split
    · rename_i hr
      rw [leaf_of_none hunset hr]
      exact diagnostics_fallback t p
    · rename_i x hr
      split
      · rename_i hv
        rw [leaf_of_ok hunset hr hv]
        rfl
      · rename_i e he
        rw [leaf_of_error hunset hr he]
        exact diagnostics_fallback t _
  · rename_i hset
    rw [leaf_of_set (Bool.eq_false_iff.mpr hset)]
    rfl

/-- Looking for nested objects adds its report to those before. -/
theorem diagnostics_nestedReplacement (r : Option Value) (path : Path) (p : Progress) :
    (context.nestedReplacement r path p).2.diagnostics =
      p.diagnostics.extend (context.misshape? r path).toList := by
  cases r with
  | none => rfl
  | some x =>
    unfold nestedReplacement misshape?
    by_cases hnull : x.isNull = true
    · simp [Option.filter, hnull, Diagnostics.extend]
    · by_cases hobject : x.isObject = true
      · simp [Option.filter, hnull, hobject, Diagnostics.extend]
      · simp [Option.filter, hnull, hobject, Diagnostics.extend]

/-- A visit adds its report to those before. -/
theorem diagnostics_after (p : Progress) (visit : Visit) :
    (context.after r p visit).diagnostics =
      p.diagnostics.extend (context.report? r visit).toList := by
  obtain ⟨path, part, target⟩ := visit
  cases part with
  | leaf t computed =>
    cases computed with
    | false => rfl
    | true => exact diagnostics_leaf t target (path.partOf r) path p
  | nested nesting parts => exact diagnostics_nestedReplacement (path.partOf r) path p

/-- **The diagnostics of a walk are the reports at its visits**, without repeats. -/
theorem diagnostics_foldl_after (visits : List Visit) (p : Progress) :
    (visits.foldl (context.after r) p).diagnostics =
      p.diagnostics.extend (visits.filterMap (context.report? r)) := by
  induction visits generalizing p with
  | nil => rfl
  | cons visit rest ih =>
    rw [List.foldl_cons, ih, diagnostics_after, List.filterMap_cons]
    cases context.report? r visit <;> rfl

/-- Two reports of one position say the same, and reports of two positions with plain names do
not. -/
theorem detail_report?_eq_iff {visit other : Visit} {d e : Diagnostic}
    (hd : context.report? r visit = some d) (he : context.report? r other = some e)
    (hpart : visit.position = other.position → visit.part = other.part)
    (hvisit : visit.path.Plain) (hother : other.path.Plain)
    (hvisitnil : visit.position ≠ []) (hothernil : other.position ≠ []) :
    d.detail = e.detail ↔ visit.position = other.position := by
  constructor
  · intro hdetail
    rcases report?_cases hd with ⟨_, _, x, -, -, -, rfl⟩ | ⟨t, x, c, -, -, -, -, rfl⟩ <;>
      rcases report?_cases he with ⟨_, _, y, -, -, -, rfl⟩ | ⟨u, y, f, -, -, -, -, rfl⟩
    · exact Diagnostic.attributeNames_of_nestedShape hvisit hother hvisitnil hothernil hdetail
    · exact absurd hdetail (Diagnostic.detail_nestedShape_ne _ _ _ _)
    · exact absurd hdetail.symm (Diagnostic.detail_nestedShape_ne _ _ _ _)
    · exact Diagnostic.attributeNames_of_typeMismatch hvisit hother hvisitnil hothernil hdetail
  · intro hposition
    -- at one position the part, the replacement and the text of the place are the same
    have hsame := hpart hposition
    have hheld : visit.path.partOf r = other.path.partOf r :=
      congrArg (fun names => r.bind (·.follow? names)) hposition
    have htext : visit.path.replacementDisplay = other.path.replacementDisplay :=
      congrArg (".".intercalate ·) hposition
    rcases report?_cases hd with
        ⟨_, _, x, hnested, hx, -, rfl⟩ | ⟨t, x, c, hleaf, -, hx, hc, rfl⟩ <;>
      rcases report?_cases he with
        ⟨_, _, y, hnested', hy, -, rfl⟩ | ⟨u, y, f, hleaf', -, hy, hf, rfl⟩
    · obtain rfl : x = y := Option.some.inj (hx.symm.trans ((congrArg _ hheld).trans hy))
      simp only [Diagnostic.nestedShape, Diagnostic.error, htext]
    · rw [hnested, hleaf'] at hsame
      cases hsame
    · rw [hleaf, hnested'] at hsame
      cases hsame
    · obtain rfl : x = y := Option.some.inj (hx.symm.trans ((congrArg _ hheld).trans hy))
      rw [hleaf, hleaf'] at hsame
      obtain rfl : t = u := (Part.leaf.inj hsame).1
      obtain rfl : c = f := Except.error.inj (hc.symm.trans hf)
      simp only [Diagnostic.typeMismatch, Diagnostic.error, htext]

end Context

end Synthesis

open Synthesis

/-- All that is reported of a replacement as a whole is that it has no object type. -/
theorem exists_of_mem_usable {r : Replacement} {d : Diagnostic} (h : d ∈ r.usable.2) :
    ∃ t, d = .nonObject t := by
  unfold Replacement.usable at h
  split at h
  · cases h
  · rename_i v hv
    split at h
    · exact ⟨v.ty, List.mem_singleton.mp h⟩
    · split at h <;> cases h

/-- **The diagnostics of a synthesis are the reports at its visits**, without repeats, after what is
reported of the replacement as a whole. -/
theorem diagnostics_synthesize (mode : Mode) (schema : Block) (target : Value) (r : Replacement)
    (g : Generator) :
    (synthesize mode schema target r g).diagnostics =
      r.usable.2.extend (Diagnostics.extend [] ((schema.visits target).filterMap
        ((⟨mode, r.range⟩ : Context).report? r.usable.1))) := by
  rw [← Context.diagnostics_foldl_after (schema.visits target) ⟨g, []⟩, ← Context.progress_block]
  rfl

/-- Every diagnostic of a synthesis is about the replacement as a whole or reported at a visit. -/
theorem mem_usable_or_exists_visit {mode : Mode} {schema : Block} {target : Value} {r : Replacement}
    {g : Generator} {d : Diagnostic} (h : d ∈ (synthesize mode schema target r g).diagnostics) :
    d ∈ r.usable.2 ∨ ∃ visit ∈ schema.visits target,
      (⟨mode, r.range⟩ : Context).report? r.usable.1 visit = some d := by
  rw [diagnostics_synthesize] at h
  refine (Diagnostics.mem_of_mem_extend h).imp_right fun h => ?_
  exact List.mem_filterMap.mp ((Diagnostics.mem_of_mem_extend h).resolve_left List.not_mem_nil)

/-- Two reports of a walk are repeats if and only if they are about one position. -/
theorem repeats_report?_iff {schema : Block} (hschema : schema.isWellFormed = true)
    (hunambiguous : schema.isUnambiguous = true) (hplain : schema.hasPlainNames = true)
    {target : Value} {context : Context} {r : Option Value} {d e : Diagnostic}
    (hd : d ∈ (schema.visits target).filterMap (context.report? r))
    (he : e ∈ (schema.visits target).filterMap (context.report? r)) :
    (d.repeats e = true ↔ d.path.attributeNames = e.path.attributeNames) ∧
      (d.repeats e = true ↔ d.detail = e.detail) := by
  obtain ⟨visit, hvisit, hd⟩ := List.mem_filterMap.mp hd
  obtain ⟨other, hother, he⟩ := List.mem_filterMap.mp he
  obtain ⟨hvisitnil, hvisitmem⟩ :=
    Block.mem_positions_of_mem_visits hschema hunambiguous hvisit
  obtain ⟨hothernil, hothermem⟩ :=
    Block.mem_positions_of_mem_visits hschema hunambiguous hother
  have hnames : ∀ {position}, position ∈ schema.positions → ∀ name ∈ position,
      isPlainName name = true := fun hmem => List.all_eq_true.mp (List.all_eq_true.mp hplain _ hmem)
  -- visits of one position are to what the block declares there
  have hpart : visit.position = other.position → visit.part = other.part := by
    intro hposition
    have h := Block.part?_of_mem_visits hschema hunambiguous hvisit
    rw [hposition, Block.part?_of_mem_visits hschema hunambiguous hother] at h
    exact (Option.some.inj h).symm
  refine ⟨?_, Context.repeats_iff_of_report? hd he⟩
  rw [Context.repeats_iff_of_report? hd he, Context.path_of_report? hd, Context.path_of_report? he]
  exact Context.detail_report?_eq_iff hd he hpart (hnames hvisitmem) (hnames hothermem) hvisitnil
    hothernil

/-- **Diagnostics are complete, and come once for each position.** A synthesis with an object for a
replacement reports, in the order of its visits, the first thing that it finds at each position:
nested objects whose replacement has no object type, at the first visit to them, and a computed leaf
whose replacement does not convert, at the first visit that finds it unset. No two diagnostics have
the same detail, and there are no more of them than positions in the schema, however many elements
the target has. -/
theorem diagnostics_eq_reports (schema : Block) (hschema : schema.isWellFormed = true)
    (hunambiguous : schema.isUnambiguous = true) (hplain : schema.hasPlainNames = true)
    (mode : Mode) (target : Value) (fields : List (String × Value)) (range : SourceRange)
    (g : Generator) :
    let context : Context := ⟨mode, range⟩
    let done := synthesize mode schema target ⟨some (.object fields), range⟩ g
    let reports := (schema.visits target).filterMap (context.report? (some (.object fields)))
    done.diagnostics =
        reports.eraseDupsBy (fun d e => d.path.attributeNames = e.path.attributeNames) ∧
      done.diagnostics.details.Nodup ∧
      done.diagnostics.length ≤ schema.positions.length := by
  intro context done reports
  have hrepeats : ∀ d ∈ reports, ∀ e ∈ reports,
      (d.repeats e = true ↔ d.path.attributeNames = e.path.attributeNames) ∧
        (d.repeats e = true ↔ d.detail = e.detail) :=
    fun d hd e he => repeats_report?_iff hschema hunambiguous hplain hd he
  have hdone : done.diagnostics = reports.eraseDupsBy fun d e => e.repeats d := by
    refine (diagnostics_synthesize mode schema target ⟨some (.object fields), range⟩ g).trans ?_
    exact (Diagnostics.extend_nil_extend_nil reports).trans (Diagnostics.extend_nil reports)
  have hsub : ∀ d ∈ done.diagnostics, d ∈ reports := fun d hd =>
    (sublist_eraseDupsBy reports).subset (hdone ▸ hd)
  have hpairwise : done.diagnostics.Pairwise fun d e => d.repeats e = false :=
    hdone ▸ pairwise_eraseDupsBy reports
  refine ⟨?_, ?_, ?_⟩
  · refine hdone.trans (eraseDupsBy_congr fun d hd e he => ?_)
    rw [Bool.eq_iff_iff, (hrepeats e he d hd).1, decide_eq_true_iff, eq_comm]
  · refine List.pairwise_map.mpr (hpairwise.imp_of_mem fun hd he h heq => ?_)
    rw [(hrepeats _ (hsub _ hd) _ (hsub _ he)).2.mpr heq] at h
    cases h
  · have hnodup : (done.diagnostics.map fun d => d.path.attributeNames).Nodup := by
      refine List.pairwise_map.mpr (hpairwise.imp_of_mem fun hd he h heq => ?_)
      rw [(hrepeats _ (hsub _ hd) _ (hsub _ he)).1.mpr heq] at h
      cases h
    rw [← List.length_map (fun d : Diagnostic => d.path.attributeNames)]
    refine (List.Nodup.subperm hnodup fun position hposition => ?_).length_le
    obtain ⟨d, hd, rfl⟩ := List.mem_map.mp hposition
    obtain ⟨visit, hvisit, hreport⟩ := List.mem_filterMap.mp (hsub d hd)
    rw [Context.path_of_report? hreport]
    exact (Block.mem_positions_of_mem_visits hschema hunambiguous hvisit).2

/-! ### A shelf

A target that has at its second element what it lacks at the first one, and lacks what it has
there. -/

/-- The schema of a shelf with disks. -/
def shelf : Block :=
  .mk [] [("disk", .many .list,
    .mk [("size", .plain .number true), ("serial", .plain .string true)] [])]

/-- A shelf with two disks. The first one has a size, and the second one is null. -/
def halfShelf : Value :=
  .object [("disk", .list .dynamic [.object [("size", .number (.zero false))], .null .dynamic])]

/-- A size that is no number, and a serial number that is no text. -/
def wrongDisk : List (String × Value) :=
  [("disk", .object [("size", .bool true), ("serial", .list .string [])])]

/-- The shelf is planned with the wrong disk: of its four leaves three are unset, and two of these
are reported. -/
theorem diagnostics_eq_reports_halfShelf :
    shelf.isWellFormed = true ∧ shelf.isUnambiguous = true ∧ shelf.hasPlainNames = true ∧
      let context : Context := ⟨.plan, SourceRange.unspecified⟩
      let done := planResource shelf halfShelf ⟨some (.object wrongDisk), SourceRange.unspecified⟩
        (Generator.seeded 0)
      let reports :=
        (shelf.visits halfShelf).filterMap (context.report? (some (.object wrongDisk)))
      done.diagnostics =
          reports.eraseDupsBy (fun d e => d.path.attributeNames = e.path.attributeNames) ∧
        done.diagnostics.details.Nodup ∧
        done.diagnostics.length ≤ shelf.positions.length :=
  ⟨by decide, by decide, by decide, diagnostics_eq_reports shelf (by decide) (by decide) (by decide)
    .plan halfShelf wrongDisk SourceRange.unspecified (Generator.seeded 0)⟩

/-- The first visit to a leaf need not be the one that is reported: a size comes before a serial
number at the first disk, where it is set, and it is reported after it, at the second disk. -/
theorem reports_not_at_first_visits :
    shelf.isWellFormed = true ∧ shelf.isUnambiguous = true ∧ shelf.hasPlainNames = true ∧
      let done := planResource shelf halfShelf ⟨some (.object wrongDisk), SourceRange.unspecified⟩
        (Generator.seeded 0)
      let firstVisits :=
        (shelf.visits halfShelf).eraseDupsBy fun visit other => visit.position = other.position
      let reported := firstVisits.filter fun visit =>
        done.diagnostics.any fun d => d.path.attributeNames = visit.position
      reported.map (·.path) =
          [[.attr "disk", .index 0, .attr "size"], [.attr "disk", .index 0, .attr "serial"]] ∧
        done.diagnostics.map (·.path) =
          [[.attr "disk", .index 0, .attr "serial"], [.attr "disk", .index 1, .attr "size"]] := by
  decide +kernel

end ProviderMock
