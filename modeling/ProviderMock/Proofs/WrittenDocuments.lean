import ProviderMock.Json.Document
import ProviderMock.Proofs.Decoding

/-!
# Reading what was written

The reader of documents reads back the compact text of a tree: `Json.document` is what it finds
there. Numbers are left out, because a document keeps them as they are spelled; there are none in
schemas.

* **strings** — `readString_flatMap_escapeChar` and `textOf_map_toNat`: the escapes of a string are
  undone.
* **trees** — `readValue_chars`: a value is read to its end and not further, with no more fuel than
  characters. `Document.ofText_text` is the whole text.
* **data** — `json?_document`: a document of data that is not too deep is the tree again.
-/

namespace ProviderMock

namespace Json

/-! ## Documents of trees -/

mutual

/-- Whether there is no number in a tree. -/
def isNumberFree : Json → Bool
  | .number _ => false
  | .array items => areNumberFree items
  | .object members => membersNumberFree members
  | _ => true
termination_by structural json => json

/-- Whether there is no number in any of the items. -/
def areNumberFree : List Json → Bool
  | [] => true
  | item :: rest => isNumberFree item && areNumberFree rest
termination_by structural items => items

/-- Whether there is no number in any of the members. -/
def membersNumberFree : List (String × Json) → Bool
  | [] => true
  | (_, item) :: rest => isNumberFree item && membersNumberFree rest
termination_by structural members => members

end

mutual

/-- The document that the text of a tree holds. The spelling of numbers is left open. -/
def document : Json → Document
  | .null => .null
  | .bool b => .bool b
  | .number _ => .unreadable
  | .string s => .string (some s)
  | .array items => .array (itemDocuments items) true
  | .object members => .object (memberDocuments members) true
termination_by structural json => json

/-- The documents of items. -/
def itemDocuments : List Json → List Document
  | [] => []
  | item :: rest => document item :: itemDocuments rest
termination_by structural items => items

/-- The documents of members, with their names. -/
def memberDocuments : List (String × Json) → List (Option String × Document)
  | [] => []
  | (name, item) :: rest => (some name, document item) :: memberDocuments rest
termination_by structural members => members

end

mutual

/-- How many arrays and objects are around the innermost part of a tree. -/
def depth : Json → Nat
  | .array items => itemsDepth items + 1
  | .object members => membersDepth members + 1
  | _ => 0
termination_by structural json => json

/-- How deep the deepest of the items is. -/
def itemsDepth : List Json → Nat
  | [] => 0
  | item :: rest => max (depth item) (itemsDepth rest)
termination_by structural items => items

/-- How deep the deepest of the members is. -/
def membersDepth : List (String × Json) → Nat
  | [] => 0
  | (_, item) :: rest => max (depth item) (membersDepth rest)
termination_by structural members => members

end

theorem isNumberFree_array_iff {items : List Json} :
    (Json.array items).isNumberFree = true ↔ ∀ item ∈ items, item.isNumberFree = true := by
  rw [isNumberFree]
  induction items with
  | nil => simp [areNumberFree]
  | cons item rest ih => simp [areNumberFree, ih]

theorem isNumberFree_object_iff {members : List (String × Json)} :
    (Json.object members).isNumberFree = true ↔ ∀ m ∈ members, m.2.isNumberFree = true := by
  rw [isNumberFree]
  induction members with
  | nil => simp [membersNumberFree]
  | cons m rest ih => simp [membersNumberFree, ih]

theorem itemsDepth_le_iff {items : List Json} {n : Nat} :
    itemsDepth items ≤ n ↔ ∀ item ∈ items, item.depth ≤ n := by
  induction items with
  | nil => simp [itemsDepth]
  | cons item rest ih => rw [itemsDepth, Nat.max_le, ih, List.forall_mem_cons]

theorem membersDepth_le_iff {members : List (String × Json)} {n : Nat} :
    membersDepth members ≤ n ↔ ∀ m ∈ members, m.2.depth ≤ n := by
  induction members with
  | nil => simp [membersDepth]
  | cons m rest ih => rw [membersDepth, Nat.max_le, ih, List.forall_mem_cons]

end Json

namespace Document

open Json (escapeChar stringText itemsChars membersChars itemDocuments memberDocuments)

/-! ## Strings -/

/-- The code of a control character is read from its four digits. -/
theorem hexCode?_of_lt {n : Nat} (h : n < 0x20) :
    hexCode? '0' '0' (Nat.digitChar (n / 16)) (Nat.digitChar (n % 16)) = some n := by
  have hall : ∀ m < 0x20, hexCode? '0' '0' (Nat.digitChar (m / 16)) (Nat.digitChar (m % 16)) =
      some m := by
    decide
  exact hall n h

/-- One character is read from how it is written. -/
theorem readString_escapeChar (c : Char) (cs : List Char) :
    readString (escapeChar c ++ cs) =
      (readString cs).map fun (codes, rest) => (c.toNat :: codes, rest) := by
  unfold escapeChar
  split
  case h_8 hquote hbackslash _ _ _ _ _ =>
    split
    · rename_i hcontrol
      simp only [List.cons_append, List.nil_append, readString, hexCode?_of_lt hcontrol]
    · rename_i hplain
      rw [List.singleton_append, readString]
      · rw [if_neg hplain]
      · exact hquote
      · exact fun _ _ _ _ _ h _ => hbackslash h
      · exact fun _ _ h _ => hbackslash h
  all_goals rfl

/-- The characters of a string are read up to its closing quote. -/
theorem readString_flatMap_escapeChar (cs rest : List Char) :
    readString (cs.flatMap escapeChar ++ '"' :: rest) = some (cs.map Char.toNat, rest) := by
  induction cs with
  | nil => rfl
  | cons c cs ih =>
    rw [List.flatMap_cons, List.append_assoc, readString_escapeChar, ih]
    rfl

/-- No character is half a surrogate pair. -/
theorem joinSurrogates_map_toNat (cs : List Char) :
    joinSurrogates (cs.map Char.toNat) = some cs := by
  induction cs with
  | nil => rfl
  | cons c cs ih =>
    have hvalid : ¬ (0xD800 ≤ c.toNat ∧ c.toNat < 0xE000) := by
      have hc : c.toNat < 0xD800 ∨ 0xDFFF < c.toNat ∧ c.toNat < 0x110000 := c.valid
      omega
    rw [List.map_cons, joinSurrogates.eq_def]
    simp only [if_neg hvalid, ih, Option.map_some, Char.ofNat_toNat]

/-- The characters of a string make the string. -/
theorem textOf_map_toNat (s : String) : textOf (s.toList.map Char.toNat) = some s := by
  rw [textOf, joinSurrogates_map_toNat, Option.map_some, String.ofList_toList]

/-! ## Trees -/

/-- The first character that a tree is written with is no white space, and it does not end an
array. -/
theorem exists_chars_eq_cons {json : Json} (hjson : json.isNumberFree = true) :
    ∃ c cs, json.chars = c :: cs ∧ c ≠ ']' ∧ ∀ rest, skipSpace (c :: rest) = c :: rest := by
  cases json with
  | number n => cases hjson
  | null | string s => exact ⟨_, _, rfl, by decide, fun _ => rfl⟩
  | bool b => cases b <;> exact ⟨_, _, rfl, by decide, fun _ => rfl⟩
  | array items => cases items <;> exact ⟨_, _, rfl, by decide, fun _ => rfl⟩
  | object members => cases members <;> exact ⟨_, _, rfl, by decide, fun _ => rfl⟩

/-- A string begins with a quote and ends with one. -/
theorem stringText_append (s : String) (rest : List Char) :
    stringText s ++ rest = '"' :: (s.toList.flatMap escapeChar ++ '"' :: rest) := by
  simp [stringText]

@[simp] theorem skipSpace_quote (rest : List Char) : skipSpace ('"' :: rest) = '"' :: rest := rfl

@[simp] theorem skipSpace_colon (rest : List Char) : skipSpace (':' :: rest) = ':' :: rest := rfl

@[simp] theorem skipSpace_bracket (rest : List Char) : skipSpace ('[' :: rest) = '[' :: rest := rfl

@[simp] theorem skipSpace_brace (rest : List Char) :
    skipSpace ('\x7b' :: rest) = '\x7b' :: rest := rfl

/-- How a value is read where a text has it in front. -/
def Reads (json : Json) : Prop :=
  ∀ fuel, json.chars.length ≤ fuel → ∀ rest,
    readValue fuel (json.chars ++ rest) = (json.document, some rest)

/-- Items are read up to the end of the array, if each of them is read. -/
theorem readItems_chars {item : Json} {items : List Json} (h : ∀ i ∈ item :: items, Reads i)
    (fuel : Nat) (hfuel : (item.chars ++ itemsChars items).length ≤ fuel) (rest : List Char) :
    readItems fuel (item.chars ++ itemsChars items ++ rest) =
      (itemDocuments (item :: items), some rest) := by
  induction items generalizing item fuel with
  | nil =>
    rw [List.length_append] at hfuel
    obtain ⟨fuel, rfl⟩ := Nat.exists_eq_add_of_le' (Nat.le_trans (Nat.le_add_left 1 _) hfuel)
    rw [List.append_assoc, readItems, h item List.mem_cons_self fuel (Nat.le_of_succ_le_succ hfuel)]
    rfl
  | cons next more ih =>
    rw [itemsChars, List.length_append, List.length_cons] at hfuel
    obtain ⟨fuel, rfl⟩ : ∃ k, fuel = k + 1 := Nat.exists_eq_add_of_le' (by omega)
    have hmore := ih (fun i hi => h i (List.mem_cons_of_mem _ hi)) fuel (by omega)
    rw [List.append_assoc, readItems, h item List.mem_cons_self fuel (by omega)]
    have hcomma : skipSpace (itemsChars (next :: more) ++ rest) =
        ',' :: (next.chars ++ itemsChars more ++ rest) := rfl
    simp only [Option.map_some, hcomma, hmore]
    rfl

/-- Members are read up to the end of the object, if each of them is read. -/
theorem readMembers_chars (name : String) {value : Json} {members : List (String × Json)}
    (h : ∀ m ∈ (name, value) :: members, Reads m.2) (fuel : Nat)
    (hfuel : (value.chars ++ membersChars members).length ≤ fuel) (rest : List Char) :
    readMembers fuel
        (stringText name ++ ':' :: (value.chars ++ membersChars members ++ rest)) =
      (memberDocuments ((name, value) :: members), some rest) := by
  induction members generalizing name value fuel with
  | nil =>
    rw [List.length_append] at hfuel
    obtain ⟨fuel, rfl⟩ := Nat.exists_eq_add_of_le' (Nat.le_trans (Nat.le_add_left 1 _) hfuel)
    have hvalue := h _ List.mem_cons_self fuel (Nat.le_of_succ_le_succ hfuel)
    rw [List.append_assoc, stringText_append, readMembers]
    simp only [skipSpace_quote, readString_flatMap_escapeChar, skipSpace_colon, hvalue,
      textOf_map_toNat]
    rfl
  | cons next more ih =>
    obtain ⟨nextName, next⟩ := next
    rw [membersChars, List.length_append, List.length_cons, List.length_append,
      List.length_cons] at hfuel
    obtain ⟨fuel, rfl⟩ : ∃ k, fuel = k + 1 := Nat.exists_eq_add_of_le' (by omega)
    have hvalue := h (name, value) List.mem_cons_self fuel (show value.chars.length ≤ fuel by omega)
    have hmore := ih nextName (fun m hm => h m (List.mem_cons_of_mem _ hm)) fuel (by omega)
    have hcomma : skipSpace (membersChars ((nextName, next) :: more) ++ rest) =
        ',' :: (stringText nextName ++ ':' :: (next.chars ++ membersChars more ++ rest)) := by
      rw [membersChars]
      simp [skipSpace]
    rw [List.append_assoc, stringText_append, readMembers]
    simp only [skipSpace_quote, readString_flatMap_escapeChar, skipSpace_colon, hvalue,
      textOf_map_toNat, Option.map_some, hcomma, hmore]
    rfl

/-- A tree is written with at least one character, so there is fuel for it. -/
theorem reads_of_succ {json : Json} (hjson : json.isNumberFree = true)
    (h : ∀ fuel, json.chars.length ≤ fuel + 1 → ∀ rest,
      readValue (fuel + 1) (json.chars ++ rest) = (json.document, some rest)) : Reads json := by
  intro fuel hfuel rest
  cases fuel with
  | zero =>
    obtain ⟨c, cs, hchars, -, -⟩ := exists_chars_eq_cons hjson
    rw [hchars] at hfuel
    cases hfuel
  | succ fuel => exact h fuel hfuel rest

/-- **What is written is read,** to its end and not further. -/
theorem reads_of_isNumberFree {json : Json} (hjson : json.isNumberFree = true) : Reads json := by
  induction json using Json.induction with
  | number n => cases hjson
  | null => exact reads_of_succ hjson fun _ _ _ => rfl
  | bool b =>
    refine reads_of_succ hjson fun _ _ _ => ?_
    cases b <;> rfl
  | string s =>
    refine reads_of_succ hjson fun fuel _ rest => ?_
    rw [Json.chars, stringText_append, readValue]
    simp only [skipSpace_quote, readString_flatMap_escapeChar, textOf_map_toNat]
    rfl
  | array items ih =>
    refine reads_of_succ hjson fun fuel hfuel rest => ?_
    cases items with
    | nil => rfl
    | cons item items =>
      have hall := Json.isNumberFree_array_iff.mp hjson
      have hitems := readItems_chars (fun i hi => ih i hi (hall i hi)) fuel
        (Nat.le_of_succ_le_succ hfuel) rest
      obtain ⟨c, cs, hchars, hc, hspace⟩ := exists_chars_eq_cons (hall item List.mem_cons_self)
      rw [hchars] at hitems
      rw [Json.chars, List.cons_append, readValue, skipSpace_bracket, hchars]
      simp only [List.cons_append, hspace] at hitems ⊢
      split
      · rename_i heq
        exact absurd (List.cons.inj heq).1 hc
      · rw [hitems]
        rfl
  | object members ih =>
    refine reads_of_succ hjson fun fuel hfuel rest => ?_
    cases members with
    | nil => rfl
    | cons member members =>
      obtain ⟨name, value⟩ := member
      have hall := Json.isNumberFree_object_iff.mp hjson
      have hlength : (value.chars ++ membersChars members).length ≤ fuel := by
        rw [Json.chars, List.length_cons, List.length_append, List.length_cons] at hfuel
        omega
      have hmembers :=
        readMembers_chars name (fun m hm => ih m hm (hall m hm)) fuel hlength rest
      rw [Json.chars, List.cons_append, List.append_assoc, List.cons_append, readValue,
        skipSpace_brace]
      rw [stringText_append] at hmembers ⊢
      simp only [skipSpace_quote]
      split
      · rename_i heq
        exact absurd (List.cons.inj heq).1 (by decide)
      · rw [hmembers]
        rfl

/-- **The text of a tree is read as its document,** and nothing is left over. -/
theorem ofText_text {json : Json} (hjson : json.isNumberFree = true) :
    ofText json.text = (json.document, true) := by
  have hread := reads_of_isNumberFree hjson (2 * json.chars.length + 2) (by omega) []
  rw [List.append_nil] at hread
  rw [ofText, Json.text, String.toList_ofList, hread]
  rfl

/-! ## Data -/

/-- Items are trees again if each of them is. -/
theorem jsonItems?_itemDocuments {depth : Nat} {items : List Json}
    (h : ∀ item ∈ items, item.document.json? depth = some item) :
    jsonItems? depth (itemDocuments items) = some items := by
  induction items with
  | nil => rfl
  | cons item rest ih =>
    rw [itemDocuments, jsonItems?, h item List.mem_cons_self,
      ih fun i hi => h i (List.mem_cons_of_mem _ hi)]
    rfl

/-- Members are trees again if each of them is. -/
theorem jsonMembers?_memberDocuments {depth : Nat} {members : List (String × Json)}
    (h : ∀ m ∈ members, m.2.document.json? depth = some m.2) :
    jsonMembers? depth (memberDocuments members) = some members := by
  induction members with
  | nil => rfl
  | cons member rest ih =>
    obtain ⟨name, value⟩ := member
    rw [memberDocuments, jsonMembers?, h (name, value) List.mem_cons_self,
      ih fun m hm => h m (List.mem_cons_of_mem _ hm)]
    rfl

/-- **The document of data writes the data,** if it is not too deep. -/
theorem json?_document {json : Json} (hjson : json.isNumberFree = true) (hdata : json.isData = true)
    {depth : Nat} (hdepth : json.depth ≤ depth) : json.document.json? depth = some json := by
  induction json using Json.induction generalizing depth with
  | number n => cases hjson
  | null | bool b | string s => rfl
  | array items ih =>
    rw [Json.isNumberFree_array_iff] at hjson
    rw [Json.isData_array_iff] at hdata
    obtain ⟨depth, rfl⟩ := Nat.exists_eq_add_of_le' (Nat.le_trans (Nat.le_add_left 1 _) hdepth)
    have hitems := jsonItems?_itemDocuments fun item hitem => ih item hitem (hjson item hitem)
      (hdata item hitem) (Json.itemsDepth_le_iff.mp (Nat.le_of_succ_le_succ hdepth) item hitem)
    rw [Json.document, json?, hitems]
    rfl
  | object members ih =>
    rw [Json.isNumberFree_object_iff] at hjson
    obtain ⟨hascending, hdata⟩ := Json.isData_object_iff.mp hdata
    obtain ⟨depth, rfl⟩ := Nat.exists_eq_add_of_le' (Nat.le_trans (Nat.le_add_left 1 _) hdepth)
    have hmembers := jsonMembers?_memberDocuments fun m hm => ih m hm (hjson m hm) (hdata m hm)
      (Json.membersDepth_le_iff.mp (Nat.le_of_succ_le_succ hdepth) m hm)
    rw [Json.document, json?, hmembers, Option.map_some, Json.ofMembers,
      Entries.ofList_eq_self hascending]

end Document

end ProviderMock
