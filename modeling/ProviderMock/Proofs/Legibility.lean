import ProviderMock.Proofs.Messages

/-!
# Reading the texts of paths

The text of a path is written for people, and still it says which path it is. Keys stand between
quotes with escapes, so whatever is in them, they end where their closing quote is. Names stand as
they are, so they must not have in them what a step begins with.

* **quotes** — `Text.unescape` takes one character off a quoted text, and
  `Text.unescape_escape` says that it undoes an escape. `Text.eq_of_quoted_append`: a quoted text
  ends at one place only.
* **steps** — `PathStep.eq_of_append`: where a step ends can be told from the text, and which step
  it is.
* **paths** — `Path.eq_of_texts`: a path has its text for itself, and a chain of names has the text
  that is shown for a place in a replacement.
-/

namespace ProviderMock

namespace Text

/-! ## Hexadecimal digits -/

/-- The value of a hexadecimal digit, with a small letter from ten on. -/
def hexDigitValue (c : Char) : Nat :=
  if isDigit c then digitValue c else c.toNat - 'a'.toNat + 10

/-- The whole number that hexadecimal digits write. -/
def hexValue (digits : List Char) : Nat :=
  digits.foldl (fun n c => 16 * n + hexDigitValue c) 0

theorem hexDigitValue_digitChar {d : Nat} (hd : d < 16) : hexDigitValue (Nat.digitChar d) = d := by
  have hall : ∀ d < 16, hexDigitValue (Nat.digitChar d) = d := by decide
  exact hall d hd

/-- A number is read back from its digits. -/
theorem hexValue_toDigits (n : Nat) : hexValue (Nat.toDigits 16 n) = n := by
  induction n using Nat.strongRecOn with
  | ind n ih =>
    rw [Nat.toDigits_eq_if (by decide)]
    split
    · rename_i hlt
      simp [hexValue, hexDigitValue_digitChar hlt]
    · have hlast := hexDigitValue_digitChar (Nat.mod_lt n (by decide : 16 > 0))
      rw [hexValue, List.foldl_append, ← hexValue, ih (n / 16) (by omega), List.foldl_cons, hlast,
        List.foldl_nil]
      omega

/-- No digit is a closing brace. -/
theorem brace_notMem_toDigits (n : Nat) : '\x7d' ∉ Nat.toDigits 16 n := by
  have hdigit : ∀ d < 16, '\x7d' ≠ Nat.digitChar d := by decide
  induction n using Nat.strongRecOn with
  | ind n ih =>
    rw [Nat.toDigits_eq_if (by decide)]
    split
    · rename_i hlt
      exact fun hmem => hdigit n hlt (List.mem_singleton.mp hmem)
    · rw [List.mem_append, List.mem_singleton]
      exact not_or.mpr ⟨ih (n / 16) (by omega), hdigit _ (Nat.mod_lt n (by decide))⟩

/-! ## Quoted texts -/

/-- The next character of a quoted text, and what follows it. There is none at the closing quote. -/
def unescape : List Char → Option (Char × List Char)
  | '\\' :: '"' :: rest => some ('"', rest)
  | '\\' :: '\\' :: rest => some ('\\', rest)
  | '\\' :: 'n' :: rest => some ('\n', rest)
  | '\\' :: 'r' :: rest => some ('\r', rest)
  | '\\' :: 't' :: rest => some ('\t', rest)
  | '\\' :: '0' :: rest => some ('\x00', rest)
  | '\\' :: 'u' :: '\x7b' :: rest =>
    some (Char.ofNat (hexValue (rest.takeWhile (· != '\x7d'))), (rest.dropWhile (· != '\x7d')).tail)
  | '"' :: _ => none
  | c :: rest => some (c, rest)
  | [] => none

/-- What is neither a quote nor a backslash stands for itself. -/
theorem unescape_of_visible {c : Char} (hquote : c ≠ '"') (hbackslash : c ≠ '\\')
    (rest : List Char) : unescape (c :: rest) = some (c, rest) := by
  unfold unescape
  split <;> simp_all

/-- The escape of a character is undone, whatever follows it. -/
theorem unescape_escape (c : Char) (rest : List Char) :
    unescape (escape c ++ rest) = some (c, rest) := by
  unfold escape
  split
  · rfl
  · rfl
  · rfl
  · rfl
  · rfl
  · rfl
  · rename_i hquote hbackslash _ _ _ _
    split
    · have hbefore : ∀ d ∈ Nat.toDigits 16 c.toNat, (d != '\x7d') = true :=
        fun d hd => bne_iff_ne.mpr fun heq => brace_notMem_toDigits c.toNat (heq ▸ hd)
      simp only [List.append_assoc, List.cons_append, List.nil_append, unescape]
      rw [List.takeWhile_append_of_pos hbefore, List.dropWhile_append_of_pos hbefore]
      simp [hexValue_toDigits]
    · exact unescape_of_visible hquote hbackslash rest

/-- **A quoted text ends at one place only**, and what is quoted can be read from it. -/
theorem eq_of_quoted_append {xs ys rest more : List Char}
    (h : xs.flatMap escape ++ '"' :: rest = ys.flatMap escape ++ '"' :: more) :
    xs = ys ∧ rest = more := by
  induction xs generalizing ys with
  | nil =>
    cases ys with
    | nil => exact ⟨rfl, (List.cons.inj h).2⟩
    | cons y ys =>
      -- one text is at its end where the other goes on
      have hnone := congrArg unescape h
      rw [List.flatMap_cons, List.append_assoc, unescape_escape] at hnone
      cases hnone
  | cons x xs ih =>
    have hread := congrArg unescape h
    rw [List.flatMap_cons, List.append_assoc, unescape_escape] at hread
    cases ys with
    | nil => cases hread
    | cons y ys =>
      rw [List.flatMap_cons, List.append_assoc, unescape_escape] at hread
      obtain ⟨rfl, hrest⟩ := Prod.mk.inj (Option.some.inj hread)
      obtain ⟨rfl, hend⟩ := ih hrest
      exact ⟨rfl, hend⟩

end Text

/-! ## Steps -/

namespace PathStep

/-- Whether a step can be told from the text of a path: a name has something in it, and nothing that
a step begins with. -/
def isLegible : PathStep → Bool
  | .attr name => decide (name ≠ "" ∧ '.' ∉ name.toList ∧ '[' ∉ name.toList)
  | _ => true

/-- What a step begins with. -/
def begins (c : Char) : Bool := c = '.' || c = '['

theorem begins_eq_false_of_isLegible {name : String} (h : (attr name).isLegible = true) :
    ∀ c ∈ name.toList, begins c = false := by
  obtain ⟨-, hpoint, hbracket⟩ := decide_eq_true_iff.mp h
  intro c hc
  have hcpoint : c ≠ '.' := fun heq => hpoint (heq ▸ hc)
  have hcbracket : c ≠ '[' := fun heq => hbracket (heq ▸ hc)
  simp [begins, hcpoint, hcbracket]

/-- What can follow a step: nothing, or a step. -/
def Follows (cs : List Char) : Prop := ∀ c ∈ cs.head?, begins c = true

/-- The text of a step that comes after another one. -/
def chars (s : PathStep) : List Char := (Path.displayStep s).toList

theorem chars_attr (name : String) : (attr name).chars = '.' :: name.toList := by
  simp [chars, Path.displayStep]

theorem chars_index (i : Nat) : (index i).chars = '[' :: (Nat.toDigits 10 i ++ [']']) := by
  simp [chars, Path.displayStep]

theorem chars_key (key : String) :
    (PathStep.key key).chars = '[' :: '"' :: (key.toList.flatMap Text.escape ++ ['"', ']']) := by
  simp [chars, Path.displayStep, Text.quote]

/-- Every step begins as steps do. -/
theorem exists_chars_eq (s : PathStep) : ∃ c cs, s.chars = c :: cs ∧ begins c = true := by
  cases s with
  | attr name => exact ⟨_, _, chars_attr name, rfl⟩
  | index i => exact ⟨_, _, chars_index i, rfl⟩
  | key key => exact ⟨_, _, chars_key key, rfl⟩

/-- An index does not look like a key. -/
theorem index_ne_quoted (i : Nat) (rest cs : List Char) :
    Nat.toDigits 10 i ++ rest ≠ '"' :: cs := by
  obtain ⟨d, ds, hdigits⟩ := List.exists_cons_of_ne_nil (Nat.toDigits_ne_nil (n := i) (b := 10))
  have hd : d.isDigit = true :=
    Nat.isDigit_of_mem_toDigits (by decide) (by decide) (hdigits ▸ List.mem_cons_self)
  rw [hdigits]
  rintro ⟨⟩
  cases hd

/-- An index ends where its bracket is closed. -/
theorem eq_of_index_append {i j : Nat} {rest more : List Char}
    (h : Nat.toDigits 10 i ++ ']' :: rest = Nat.toDigits 10 j ++ ']' :: more) :
    i = j ∧ rest = more := by
  have hdigits : ∀ n, ∀ c ∈ Nat.toDigits 10 n, (c == ']') = false := by
    intro n c hc
    have hdigit := Nat.isDigit_of_mem_toDigits (by decide) (by decide) hc
    refine beq_eq_false_iff_ne.mpr ?_
    rintro rfl
    cases hdigit
  obtain ⟨htext, hrest⟩ := eq_of_append_of_stops (p := (· == ']')) (hdigits i) (hdigits j)
    (by simp) (by simp) h
  have hvalue := congrArg (Nat.ofDigitChars 10 · 0) htext
  simp only [Nat.ofDigitChars_ten_toDigits] at hvalue
  exact ⟨hvalue, (List.cons.inj hrest).2⟩

variable {s t : PathStep} {rest more : List Char}

/-- **A step ends at one place only**, and which step it is can be read from the text. -/
theorem eq_of_chars_append (hs : s.isLegible = true) (ht : t.isLegible = true)
    (hrest : Follows rest) (hmore : Follows more) (h : s.chars ++ rest = t.chars ++ more) :
    s = t ∧ rest = more := by
  cases s with
  | attr name =>
    cases t with
    | attr other =>
      rw [chars_attr, chars_attr] at h
      obtain ⟨hname, hfollows⟩ := eq_of_append_of_stops (begins_eq_false_of_isLegible hs)
        (begins_eq_false_of_isLegible ht) hrest hmore (List.cons.inj h).2
      exact ⟨congrArg attr (String.toList_inj.mp hname), hfollows⟩
    | index j => simp [chars_attr, chars_index] at h
    | key k => simp [chars_attr, chars_key] at h
  | index i =>
    cases t with
    | attr other => simp [chars_attr, chars_index] at h
    | index j =>
      obtain ⟨rfl, hfollows⟩ := eq_of_index_append (by simpa [chars_index] using h)
      exact ⟨rfl, hfollows⟩
    | key k =>
      simp only [chars_index, chars_key, List.cons_append, List.append_assoc] at h
      exact absurd (List.cons.inj h).2 (index_ne_quoted i _ _)
  | key key =>
    cases t with
    | attr other => simp [chars_attr, chars_key] at h
    | index j =>
      simp only [chars_index, chars_key, List.cons_append, List.append_assoc] at h
      exact absurd (List.cons.inj h).2.symm (index_ne_quoted j _ _)
    | key other =>
      simp only [chars_key, List.cons_append, List.append_assoc, List.nil_append] at h
      obtain ⟨hkey, hclosed⟩ := Text.eq_of_quoted_append (List.cons.inj (List.cons.inj h).2).2
      exact ⟨congrArg PathStep.key (String.toList_inj.mp hkey), (List.cons.inj hclosed).2⟩

end PathStep

/-! ## Paths -/

namespace Path

variable {p q : Path}

/-- Whether all steps of a path can be told from its text. -/
def isLegible (path : Path) : Bool := path.all PathStep.isLegible

/-- The text of steps that come after others. -/
def chars (path : Path) : List Char := path.flatMap PathStep.chars

theorem chars_cons (s : PathStep) (rest : Path) : chars (s :: rest) = s.chars ++ rest.chars := rfl

/-- The text of further steps begins as a step does. -/
theorem follows_chars (path : Path) : PathStep.Follows path.chars := by
  cases path with
  | nil => exact nofun
  | cons s rest =>
    obtain ⟨c, cs, hs, hc⟩ := s.exists_chars_eq
    rw [chars_cons, hs]
    exact fun d hd => Option.some.inj hd ▸ hc

/-- Steps leave a text. -/
theorem chars_cons_ne_nil (s : PathStep) (rest : Path) : chars (s :: rest) ≠ [] := by
  obtain ⟨c, cs, hs, -⟩ := s.exists_chars_eq
  rw [chars_cons, hs]
  exact List.cons_ne_nil _ _

/-- Steps can be read from their text, one after the other. -/
theorem eq_of_chars (hp : p.isLegible = true) (hq : q.isLegible = true) (h : p.chars = q.chars) :
    p = q := by
  induction p generalizing q with
  | nil =>
    cases q with
    | nil => rfl
    | cons t others => exact absurd h.symm (chars_cons_ne_nil t others)
  | cons s rest ih =>
    cases q with
    | nil => exact absurd h (chars_cons_ne_nil s rest)
    | cons t others =>
      obtain ⟨hs, hrest⟩ := Bool.and_eq_true_iff.mp hp
      obtain ⟨ht, hothers⟩ := Bool.and_eq_true_iff.mp hq
      obtain ⟨rfl, hmore⟩ := PathStep.eq_of_chars_append hs ht (follows_chars rest)
        (follows_chars others) h
      rw [ih hrest hothers hmore]

/-- A text with the point that is left out before a first name. -/
def pointed : List Char → List Char
  | [] => []
  | '[' :: cs => '[' :: cs
  | cs => '.' :: cs

/-- Steps that are written one after the other. -/
theorem toList_join_displayStep (path : Path) :
    (String.join (path.map displayStep)).toList = path.chars := by
  induction path with
  | nil => rfl
  | cons s rest ih => rw [List.map_cons, String.join_cons, String.toList_append, ih]; rfl

/-- A path that begins with a position is written as it is after other steps. -/
theorem toList_display {s : PathStep} (h : ∀ name, s ≠ .attr name) (rest : Path) :
    (display (s :: rest)).toList = chars (s :: rest) := by
  cases s with
  | attr name => exact absurd rfl (h name)
  | index i => exact toList_join_displayStep (.index i :: rest)
  | key key => exact toList_join_displayStep (.key key :: rest)

/-- The point is put back before anything that is no bracket. -/
theorem pointed_of_ne {c : Char} (h : c ≠ '[') (cs : List Char) :
    pointed (c :: cs) = '.' :: c :: cs := by
  unfold pointed
  split <;> simp_all

/-- But for the point before a first name, a path is written as it is after other steps. -/
theorem pointed_display (hp : p.isLegible = true) : pointed p.display.toList = p.chars := by
  cases p with
  | nil => rfl
  | cons s rest =>
    cases s with
    | attr name =>
      obtain ⟨hname, -⟩ := Bool.and_eq_true_iff.mp hp
      have hnil : name.toList ≠ [] := fun heq =>
        (decide_eq_true_iff.mp hname).1 (String.toList_eq_nil_iff.mp heq)
      obtain ⟨c, cs, hcs⟩ := List.exists_cons_of_ne_nil hnil
      have hbracket : c ≠ '[' := by
        rintro rfl
        exact (decide_eq_true_iff.mp hname).2.2 (hcs ▸ List.mem_cons_self)
      rw [display, String.toList_append, toList_join_displayStep, chars_cons, PathStep.chars_attr,
        hcs]
      exact pointed_of_ne hbracket _
    | index i =>
      rw [toList_display (by simp), chars_cons, PathStep.chars_index]
      rfl
    | key key =>
      rw [toList_display (by simp), chars_cons, PathStep.chars_key]
      rfl

/-- **Paths can be told from their texts.** Two paths with the same text are the same, if their
names have something in them and nothing that a step begins with; keys may be anything. Two chains
of names with the same text in a replacement are the same, if their names have no points in them,
whatever positions lie between. -/
theorem eq_of_texts :
    (p.isLegible = true → q.isLegible = true → p.display = q.display → p = q) ∧
      (p.PointFree → q.PointFree → p.attributeNames ≠ [] → q.attributeNames ≠ [] →
        p.replacementDisplay = q.replacementDisplay → p.attributeNames = q.attributeNames) := by
  refine ⟨fun hp hq h => ?_, attributeNames_of_replacementDisplay⟩
  exact eq_of_chars hp hq (by rw [← pointed_display hp, ← pointed_display hq, h])

/-- The identifier under a key that looks like two steps and more. -/
def oddKey : Path := [.attr "tags", .key "a\"].b[\"c", .attr "id"]

/-- The identifier under the keys that the odd one looks like. -/
def twoKeys : Path := [.attr "tags", .key "a", .attr "b", .key "c", .attr "id"]

/-- The quotes of a key keep the odd path from the one it looks like. In a replacement its text is
that of any tag. -/
theorem eq_of_texts_oddKey :
    oddKey.display = "tags[\"a\\\"].b[\\\"c\"].id" ∧ twoKeys.display = "tags[\"a\"].b[\"c\"].id" ∧
      oddKey.display ≠ twoKeys.display ∧
      ((root.step (.attr "tags")).step (.key "a\"].b[\"c")).step (.attr "id") = oddKey ∧
      oddKey.attributeNames = Path.attributeNames [.attr "tags", .index 0, .attr "id"] := by
  refine ⟨by decide +kernel, by decide +kernel, fun h => ?other, ?same, ?names⟩
  case other => exact absurd (eq_of_texts.1 (by decide) (by decide) h) (by decide)
  case same => exact eq_of_texts.1 (by decide) (by decide) rfl
  case names =>
    exact eq_of_texts.2 (by unfold PointFree; decide) (by unfold PointFree; decide) (by decide)
      (by decide) (by decide)

end Path

end ProviderMock
