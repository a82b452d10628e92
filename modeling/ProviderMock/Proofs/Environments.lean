import Mathlib.Algebra.Ring.Nat
import Mathlib.Data.List.TakeWhile
import ProviderMock.Generator.Settings

/-!
# What an environment sets

A variable of an environment sets a number if its value writes one: digits, perhaps after a plus,
between white space. Everything else is passed over, with one warning, and makes no difference to
the other variable.

* **numerals** — `Text.Denotes` says which texts are numerals and of which numbers.
  `Text.numeral_eq_ok_iff`: these are read, if they are below the bound, and no others.
* **white space** — `Text.trim_append` and `Text.exists_append_trim`: what is removed from a text is
  the white space at its ends, and all of it.
* **variables** — `Settings.Sets` is what a variable sets, and `Settings.read_exact` is all that
  settings are.
-/

namespace ProviderMock

namespace Text

/-! ## Numerals -/

/-- A numeral and the number that it denotes. -/
inductive Denotes : List Char → ℕ → Prop where
  | plain (digits : List Char) (hnil : digits ≠ []) (h : ∀ c ∈ digits, isDigit c = true) :
    Denotes digits (ofDigits digits)
  | signed (digits : List Char) (hnil : digits ≠ []) (h : ∀ c ∈ digits, isDigit c = true) :
    Denotes ('+' :: digits) (ofDigits digits)

theorem Denotes.ne_nil {cs : List Char} {n : ℕ} (h : Denotes cs n) : cs ≠ [] := by
  cases h with
  | plain digits hnil _ => exact hnil
  | signed digits _ _ => exact List.cons_ne_nil _ _

/-- More digits make no number smaller. -/
theorem le_foldl_digits (cs : List Char) (value : ℕ) :
    value ≤ cs.foldl (fun n c => 10 * n + digitValue c) value := by
  induction cs generalizing value with
  | nil => exact Nat.le_refl value
  | cons c rest ih =>
    have hnext : value ≤ 10 * value + digitValue c := by omega
    exact Nat.le_trans hnext (ih (10 * value + digitValue c))

/-- Digits are read as long as their value stays below the bound. -/
theorem numeralFrom_eq_ok_iff {bound value n : ℕ} {cs : List Char} (hvalue : value < bound) :
    numeralFrom bound value cs = .ok n ↔ (∀ c ∈ cs, isDigit c = true) ∧
      cs.foldl (fun n c => 10 * n + digitValue c) value = n ∧ n < bound := by
  induction cs generalizing value with
  | nil =>
    constructor
    · rintro ⟨⟩
      exact ⟨List.forall_mem_nil _, rfl, hvalue⟩
    · rintro ⟨-, rfl, -⟩
      rfl
  | cons c rest ih =>
    rw [numeralFrom, List.forall_mem_cons, List.foldl_cons]
    by_cases hdigit : isDigit c = true
    · by_cases hbound : bound ≤ 10 * value + digitValue c
      · -- the bound is met here, and the digits that follow lead no further down
        have hle := le_foldl_digits rest (10 * value + digitValue c)
        simp only [hdigit, hbound, if_true]
        constructor
        · rintro ⟨⟩
        · rintro ⟨-, rfl, hlt⟩
          omega
      · simp only [hdigit, hbound, if_true, if_false, true_and]
        exact ih (Nat.lt_of_not_le hbound)
    · simp [hdigit]

/-- A text with a plus is a numeral if what follows is digits. -/
theorem denotes_plus_iff {digits : List Char} {n : ℕ} :
    Denotes ('+' :: digits) n ↔
      digits ≠ [] ∧ (∀ c ∈ digits, isDigit c = true) ∧ ofDigits digits = n := by
  constructor
  · intro h
    cases h with
    | plain _ _ hdigits => exact absurd (hdigits '+' List.mem_cons_self) (by decide)
    | signed _ hnil hdigits => exact ⟨hnil, hdigits, rfl⟩
  · rintro ⟨hnil, hdigits, rfl⟩
    exact .signed digits hnil hdigits

/-- A text without a plus is a numeral if it is digits. -/
theorem denotes_iff_of_ne_plus {digits : List Char} {n : ℕ} (h : ∀ rest, digits ≠ '+' :: rest) :
    Denotes digits n ↔
      digits ≠ [] ∧ (∀ c ∈ digits, isDigit c = true) ∧ ofDigits digits = n := by
  constructor
  · intro hdenotes
    cases hdenotes with
    | plain _ hnil hdigits => exact ⟨hnil, hdigits, rfl⟩
    | signed rest _ _ => exact absurd rfl (h rest)
  · rintro ⟨hnil, hdigits, rfl⟩
    exact .plain digits hnil hdigits

/-- **Numerals below the bound are read, and nothing else is.** -/
theorem numeral_eq_ok_iff {bound n : ℕ} (hbound : 0 < bound) {cs : List Char} :
    numeral bound cs = .ok n ↔ Denotes cs n ∧ n < bound := by
  unfold numeral
  split
  · exact ⟨nofun, fun h => absurd rfl h.1.ne_nil⟩
  · exact ⟨nofun, fun h => absurd rfl (denotes_plus_iff.mp h.1).1⟩
  · rename_i rest hlone
    have hnil : rest ≠ [] := fun heq => hlone (heq ▸ rfl)
    rw [numeralFrom_eq_ok_iff hbound, denotes_plus_iff, and_iff_right hnil, and_assoc]
    rfl
  · rename_i hnil _ hplus
    rw [numeralFrom_eq_ok_iff hbound, denotes_iff_of_ne_plus hplus, and_iff_right hnil, and_assoc]
    rfl

/-! ## White space -/

/-- No digit is white space. -/
theorem isBlank_of_isDigit {c : Char} (h : isDigit c = true) : isBlank c = false := by
  simp only [isDigit, Bool.and_eq_true, decide_eq_true_eq] at h
  have hlow : '0'.toNat ≤ c.toNat := h.1
  have hhigh : c.toNat ≤ '9'.toNat := h.2
  have h0 : '0'.toNat = 48 := rfl
  have h9 : '9'.toNat = 57 := rfl
  simp only [isBlank, Bool.or_eq_false_iff, Bool.and_eq_false_imp, decide_eq_true_eq,
    decide_eq_false_iff_not]
  omega

/-- There is no white space in a numeral. -/
theorem Denotes.isBlank {cs : List Char} {n : ℕ} (h : Denotes cs n) :
    ∀ c ∈ cs, isBlank c = false := by
  cases h with
  | plain digits _ hdigits => exact fun c hc => isBlank_of_isDigit (hdigits c hc)
  | signed digits _ hdigits =>
    exact List.forall_mem_cons.mpr ⟨by decide, fun c hc => isBlank_of_isDigit (hdigits c hc)⟩

/-- Only white space is removed from a text, and only at its ends. -/
theorem exists_append_trim (cs : List Char) :
    ∃ before after, cs = before ++ trim cs ++ after ∧ (∀ c ∈ before, isBlank c = true) ∧
      ∀ c ∈ after, isBlank c = true := by
  refine ⟨cs.takeWhile isBlank, ((cs.dropWhile isBlank).reverse.takeWhile isBlank).reverse, ?_,
    fun c hc => List.mem_takeWhile_imp hc, fun c hc => List.mem_takeWhile_imp (List.mem_reverse.mp hc)⟩
  rw [trim, List.append_assoc, ← List.reverse_append, List.takeWhile_append_dropWhile,
    List.reverse_reverse, List.takeWhile_append_dropWhile]

/-- All white space at the ends of a text is removed. -/
theorem trim_append {before body after : List Char} (hbefore : ∀ c ∈ before, isBlank c = true)
    (hafter : ∀ c ∈ after, isBlank c = true) (hbody : ∀ c ∈ body, isBlank c = false)
    (hnil : body ≠ []) : trim (before ++ body ++ after) = body := by
  -- nothing is removed from a text that does not begin with white space
  have hkeep : ∀ {xs : List Char} (ys : List Char), (∀ c ∈ xs, isBlank c = false) → xs ≠ [] →
      (xs ++ ys).dropWhile isBlank = xs ++ ys := by
    intro xs ys hxs hne
    obtain ⟨x, rest, rfl⟩ := List.exists_cons_of_ne_nil hne
    exact List.dropWhile_cons_of_neg (by simp [hxs x List.mem_cons_self])
  have hreversed : ∀ c ∈ body.reverse, isBlank c = false :=
    fun c hc => hbody c (List.mem_reverse.mp hc)
  rw [trim, List.append_assoc, List.dropWhile_append_of_pos hbefore, hkeep after hbody hnil,
    List.reverse_append, List.dropWhile_append_of_pos fun c hc => hafter c (List.mem_reverse.mp hc),
    ← List.append_nil body.reverse, hkeep [] hreversed (List.reverse_ne_nil_iff.mpr hnil),
    List.append_nil, List.reverse_reverse]

/-- A text writes a number: it is a numeral, with any white space around it. -/
def Writes (text : String) (n : ℕ) : Prop :=
  ∃ before numeral after, text.toList = before ++ numeral ++ after ∧
    (∀ c ∈ before, isBlank c = true) ∧ (∀ c ∈ after, isBlank c = true) ∧ Denotes numeral n

end Text

namespace Settings

open Text (Denotes Writes)

/-! ## Variables -/

/-- The values that write numbers of 64 bits are read, and no others. -/
theorem number_eq_ok_iff {value : String} {n : ℕ} :
    number value = .ok n ↔ Writes value n ∧ n < 2 ^ 64 := by
  have hsize : UInt64.size = 2 ^ 64 := rfl
  rw [number, Text.numeral_eq_ok_iff (by decide), hsize]
  refine and_congr_left fun _ => ⟨fun hdenotes => ?_, ?_⟩
  · obtain ⟨before, after, htext, hbefore, hafter⟩ := Text.exists_append_trim value.toList
    exact ⟨before, _, after, htext, hbefore, hafter, hdenotes⟩
  · rintro ⟨before, numeral, after, htext, hbefore, hafter, hdenotes⟩
    rw [htext, Text.trim_append hbefore hafter hdenotes.isBlank hdenotes.ne_nil]
    exact hdenotes

/-- A variable sets a number of 64 bits that is at least `least`. -/
def Sets (env : Environment) (name : String) (least n : ℕ) : Prop :=
  ∃ value, env.lookup name = some value ∧ Writes value n ∧ least ≤ n ∧ n < 2 ^ 64

/-- A variable is there, and sets no number that is at least `least`. -/
def Refused (env : Environment) (name : String) (least : ℕ) : Prop :=
  (env.lookup name).isSome = true ∧ ∀ n, ¬ Sets env name least n

variable {env : Environment} {name : String}

theorem sets_iff {least n : ℕ} : Sets env name least n ↔
    ∃ value, env.lookup name = some value ∧ number value = .ok n ∧ least ≤ n := by
  simp only [Sets, number_eq_ok_iff, and_assoc, and_comm (a := _ < _)]

/-- A variable that is not there sets nothing, and is not refused. -/
theorem sets_of_none (least : ℕ) (h : env.lookup name = none) :
    (∀ n, ¬ Sets env name least n) ∧ ¬ Refused env name least := by
  simp [sets_iff, Refused, h]

/-- A variable whose value cannot be read is refused. -/
theorem refused_of_error (least : ℕ) {value : String} {e : Text.NumeralError}
    (h : env.lookup name = some value) (he : number value = .error e) :
    Refused env name least := by
  simp [Refused, sets_iff, h, he]

/-- A variable whose value is read sets the number, or is refused. -/
theorem sets_of_ok (least : ℕ) {value : String} {m : ℕ} (h : env.lookup name = some value)
    (hm : number value = .ok m) :
    (∀ n, Sets env name least n ↔ m = n ∧ least ≤ n) ∧ (Refused env name least ↔ m < least) := by
  have hsets : ∀ n, Sets env name least n ↔ m = n ∧ least ≤ n := by simp [sets_iff, h, hm]
  refine ⟨hsets, ?_⟩
  simp [Refused, hsets, h]

/-! ## Settings -/

open Classical in
/-- The seed is what its variable sets, and there is a warning if that is refused. -/
theorem readSeed_exact (env : Environment) :
    (∀ n, (readSeed env).1 = some n ↔ Sets env seedVariable 0 n.toNat) ∧
      (readSeed env).2.map SettingsWarning.variableName =
        if Refused env seedVariable 0 then [seedVariable] else [] := by
  cases hvalue : env.lookup seedVariable with
  | none =>
    obtain ⟨hno, hkept⟩ := sets_of_none 0 hvalue
    simp [readSeed, hvalue, hno, hkept]
  | some value =>
    cases hnumber : number value with
    | error e =>
      have hrefused := refused_of_error 0 hvalue hnumber
      simp [readSeed, hvalue, hnumber, hrefused, hrefused.2, SettingsWarning.variableName]
    | ok m =>
      obtain ⟨hsets, hkept⟩ := sets_of_ok 0 hvalue hnumber
      have hm : m < 2 ^ 64 := (number_eq_ok_iff.mp hnumber).2
      have hseed : ∀ n : UInt64, UInt64.ofNat m = n ↔ m = n.toNat := by
        intro n
        constructor
        · rintro rfl
          exact (UInt64.toNat_ofNat_of_lt hm).symm
        · rintro rfl
          exact UInt64.ofNat_toNat
      simp [readSeed, hvalue, hnumber, hsets, hkept, hseed]

open Classical in
/-- The length is what its variable sets, or eight, and there is a warning if that is refused. -/
theorem readLength_exact (env : Environment) :
    (∀ n, (readLength env).1 = n ↔ Sets env lengthVariable 1 n ∨
      n = 8 ∧ ∀ m, ¬ Sets env lengthVariable 1 m) ∧
      (readLength env).2.map SettingsWarning.variableName =
        if Refused env lengthVariable 1 then [lengthVariable] else [] := by
  cases hvalue : env.lookup lengthVariable with
  | none =>
    obtain ⟨hno, hkept⟩ := sets_of_none 1 hvalue
    simp [readLength, hvalue, hno, hkept, standard, eq_comm]
  | some value =>
    cases hnumber : number value with
    | error e =>
      have hrefused := refused_of_error 1 hvalue hnumber
      simp [readLength, hvalue, hnumber, hrefused, hrefused.2, SettingsWarning.variableName,
        standard, eq_comm]
    | ok m =>
      obtain ⟨hsets, hkept⟩ := sets_of_ok 1 hvalue hnumber
      cases m with
      | zero =>
        simp [readLength, hvalue, hnumber, hsets, hkept, SettingsWarning.variableName, standard,
          eq_comm]
      | succ m => simp [readLength, hvalue, hnumber, hsets, hkept]

open Classical in
/-- **Settings are what the variables set, each for itself.** There is a seed exactly if its variable
writes a number of 64 bits, and it is this number. The length is the number that its variable writes
if that is not zero, and eight if there is none. What one variable holds makes no difference to the
other. For each variable that is there and does not write what it should there is one warning, that
of the seed first, and there are no others. -/
theorem read_exact (env : Environment) :
    (∀ n, (read env).1.seed = some n ↔ Sets env seedVariable 0 n.toNat) ∧
      (∀ n, (read env).1.stringLength = n ↔ Sets env lengthVariable 1 n ∨
        n = 8 ∧ ∀ m, ¬ Sets env lengthVariable 1 m) ∧
      (∀ other : Environment, other.lookup seedVariable = env.lookup seedVariable →
        (read other).1.seed = (read env).1.seed) ∧
      (∀ other : Environment, other.lookup lengthVariable = env.lookup lengthVariable →
        (read other).1.stringLength = (read env).1.stringLength) ∧
      (read env).2.map SettingsWarning.variableName =
        (if Refused env seedVariable 0 then [seedVariable] else []) ++
          (if Refused env lengthVariable 1 then [lengthVariable] else []) := by
  obtain ⟨hseed, hseedWarnings⟩ := readSeed_exact env
  obtain ⟨hlength, hlengthWarnings⟩ := readLength_exact env
  refine ⟨hseed, hlength, fun other h => ?seed, fun other h => ?length, ?warnings⟩
  case seed => simp only [read, readSeed, h]
  case length => simp only [read, readLength, h]
  case warnings => rw [← hseedWarnings, ← hlengthWarnings, ← List.map_append]; rfl

/-! ### Padded numerals -/

/-- A seed with a plus, zeros in front and white space of two kinds around it, and no length. -/
def paddedSeed : Environment :=
  [(lengthVariable, "0"), (seedVariable, "\u2003+0042\n")]

/-- The same seed, and a length that is too large by one. -/
def largeLength : Environment :=
  [(seedVariable, "\u2003+0042\n"), (lengthVariable, "18446744073709551616")]

/-- The padded seed is read with either length, and the length of zero is refused, with or without a
seed. -/
theorem read_exact_paddedSeed :
    largeLength.lookup seedVariable = paddedSeed.lookup seedVariable ∧
      Sets paddedSeed seedVariable 0 42 ∧ (read largeLength).1.seed = some 42 ∧
      (paddedSeed.take 1).lookup lengthVariable = paddedSeed.lookup lengthVariable ∧
      Refused paddedSeed lengthVariable 1 ∧ (read (paddedSeed.take 1)).1.stringLength = 8 ∧
      (read paddedSeed).2.map SettingsWarning.variableName = [lengthVariable] := by
  obtain ⟨hseed, hlength, hsameSeed, hsameLength, hwarnings⟩ := read_exact paddedSeed
  have hsets : Sets paddedSeed seedVariable 0 42 := (hseed 42).mp (by decide)
  have hrefused : Refused paddedSeed lengthVariable 1 :=
    (sets_of_ok 1 (show paddedSeed.lookup lengthVariable = some "0" from rfl) rfl).2.mpr Nat.one_pos
  have hstandard : (read paddedSeed).1.stringLength = 8 := (hlength 8).mpr (.inr ⟨rfl, hrefused.2⟩)
  have hread : (read largeLength).1.seed = some 42 :=
    (hsameSeed largeLength rfl).trans ((hseed 42).mpr hsets)
  have hlone : (read (paddedSeed.take 1)).1.stringLength = 8 :=
    (hsameLength (paddedSeed.take 1) rfl).trans hstandard
  refine ⟨rfl, hsets, hread, rfl, hrefused, hlone, ?_⟩
  rw [hwarnings, if_neg fun h => h.2 42 hsets, if_pos hrefused]
  rfl

end Settings

end ProviderMock
