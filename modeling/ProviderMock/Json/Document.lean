import ProviderMock.Json.Numeral

/-!
# JSON documents

What a JSON text says, in reading order. A `Document` keeps the members of objects in the order they
are written, repeated names included, keeps numbers as they are spelled, and goes as far as the text
can be read: where reading stops, the document says so. This is what a reader with its own
expectations works on, because the first thing wrong in reading order decides what it reports.

* **reading** — `Document.ofText` never fails. A value that cannot be read is `unreadable`, an array
  or object that is not ended properly is not `closed`, and a string with half a surrogate pair has
  no text.
* **strict JSON** — `Document.json?` is the tree that a document writes: everything in it must be
  readable and closed, every string must have a text, every number must fit a double, and arrays and
  objects must not nest deeper than allowed. Of repeated members the last one counts.
* **ignored parts** — `Document.isComplete` asks only that everything is readable and closed.
-/

namespace ProviderMock

/-- A JSON text as far as it can be read. -/
inductive Document where
  | null
  | bool (bool : Bool)
  | number (numeral : Json.Numeral)
  /-- a string; it has no text if a surrogate stands alone in it -/
  | string (text : Option String)
  /-- an array; it is closed if its bracket was found where it belongs -/
  | array (items : List Document) (closed : Bool)
  /-- an object; it is closed if its brace was found where it belongs -/
  | object (members : List (Option String × Document)) (closed : Bool)
  /-- no value could be read here -/
  | unreadable
  deriving Inhabited

namespace Document

/-! ## Strings -/

/-- The value of a hexadecimal digit. -/
def hexDigit? (c : Char) : Option Nat :=
  if Text.isDigit c then some (Text.digitValue c)
  else if 'a' ≤ c ∧ c ≤ 'f' then some (c.toNat - 'a'.toNat + 10)
  else if 'A' ≤ c ∧ c ≤ 'F' then some (c.toNat - 'A'.toNat + 10)
  else none

/-- The value of four hexadecimal digits. -/
def hexCode? (a b c d : Char) : Option Nat := do
  let a ← hexDigit? a
  let b ← hexDigit? b
  let c ← hexDigit? c
  let d ← hexDigit? d
  return ((a * 16 + b) * 16 + c) * 16 + d

/-- The character that a letter after a backslash stands for. -/
def unescape? (c : Char) : Option Char :=
  match c with
  | '"' => some '"'
  | '\\' => some '\\'
  | '/' => some '/'
  | 'b' => some '\x08'
  | 'f' => some '\x0c'
  | 'n' => some '\n'
  | 'r' => some '\r'
  | 't' => some '\t'
  | _ => none

/-- The code units of a string after its opening quote, and what follows the closing one. Characters
give their code points and escapes by number the number, which may be a surrogate. -/
def readString : List Char → Option (List Nat × List Char)
  | [] => none
  | '"' :: rest => some ([], rest)
  | '\\' :: 'u' :: a :: b :: c :: d :: rest =>
    match hexCode? a b c d with
    | none => none
    -- half a surrogate pair is kept as a number until its other half is looked for
    | some code => (readString rest).map fun (codes, rest) => (code :: codes, rest)
  | '\\' :: c :: rest =>
    match unescape? c with
    | none => none
    | some c => (readString rest).map fun (codes, rest) => (c.toNat :: codes, rest)
  | c :: rest =>
    if c.toNat < 0x20 then none
    else (readString rest).map fun (codes, rest) => (c.toNat :: codes, rest)

/-- The characters of code units: a high surrogate and a low one after it make one character, and
neither stands alone. -/
def joinSurrogates : List Nat → Option (List Char)
  | [] => some []
  | code :: rest =>
    if 0xD800 ≤ code ∧ code < 0xE000 then
      match rest with
      | low :: rest =>
        if code < 0xDC00 ∧ 0xDC00 ≤ low ∧ low < 0xE000 then
          let joined := 0x10000 + (code - 0xD800) * 0x400 + (low - 0xDC00)
          (joinSurrogates rest).map (Char.ofNat joined :: ·)
        else none
      | [] => none
    else (joinSurrogates rest).map (Char.ofNat code :: ·)

/-- The text of code units. -/
def textOf (codes : List Nat) : Option String := (joinSurrogates codes).map String.ofList

/-! ## Reading -/

/-- A text without the white space at its front: space, tab, line feed and carriage return. -/
def skipSpace (cs : List Char) : List Char :=
  cs.dropWhile fun c => c = ' ' || c = '\t' || c = '\n' || c = '\r'

mutual

/-- The value at the front of a text, and what follows it if it could be read to its end. Each call
uses up one of `fuel`. -/
def readValue : Nat → List Char → Document × Option (List Char)
  | 0, _ => (.unreadable, none)
  | fuel + 1, cs =>
    match skipSpace cs with
    | 'n' :: 'u' :: 'l' :: 'l' :: rest => (.null, some rest)
    | 't' :: 'r' :: 'u' :: 'e' :: rest => (.bool true, some rest)
    | 'f' :: 'a' :: 'l' :: 's' :: 'e' :: rest => (.bool false, some rest)
    | '"' :: rest =>
      match readString rest with
      | some (codes, rest) => (.string (textOf codes), some rest)
      | none => (.unreadable, none)
    | '[' :: rest =>
      match skipSpace rest with
      | ']' :: rest => (.array [] true, some rest)
      | rest =>
        let (items, rest) := readItems fuel rest
        (.array items rest.isSome, rest)
    | '\x7b' :: rest =>
      match skipSpace rest with
      | '\x7d' :: rest => (.object [] true, some rest)
      | rest =>
        let (members, rest) := readMembers fuel rest
        (.object members rest.isSome, rest)
    | cs =>
      match Json.Numeral.split cs with
      | some (numeral, rest) => (.number numeral, some rest)
      | none => (.unreadable, none)
termination_by structural fuel => fuel

/-- The items of an array from the next one on, and what follows the bracket if it was found. -/
def readItems : Nat → List Char → List Document × Option (List Char)
  | 0, _ => ([], none)
  | fuel + 1, cs =>
    let (item, rest) := readValue fuel cs
    match rest.map skipSpace with
    | some (']' :: rest) => ([item], some rest)
    | some (',' :: rest) =>
      let (items, rest) := readItems fuel rest
      (item :: items, rest)
    | _ => ([item], none)
termination_by structural fuel => fuel

/-- The members of an object from the next one on, and what follows the brace if it was found. A
name with no colon after it has an unreadable value. -/
def readMembers : Nat → List Char → List (Option String × Document) × Option (List Char)
  | 0, _ => ([], none)
  | fuel + 1, cs =>
    match skipSpace cs with
    | '"' :: rest =>
      match readString rest with
      | none => ([], none)
      | some (codes, rest) =>
        match skipSpace rest with
        | ':' :: rest =>
          let (value, rest) := readValue fuel rest
          match rest.map skipSpace with
          | some ('\x7d' :: rest) => ([(textOf codes, value)], some rest)
          | some (',' :: rest) =>
            let (members, rest) := readMembers fuel rest
            ((textOf codes, value) :: members, rest)
          | _ => ([(textOf codes, value)], none)
        | _ => ([(textOf codes, .unreadable)], none)
    | _ => ([], none)
termination_by structural fuel => fuel

end

/-- The document that a text holds, and whether nothing but white space follows it. Every second
call of the readers takes at least one character off the text, so twice its length is enough
fuel. -/
def ofText (text : String) : Document × Bool :=
  let cs := text.toList
  let (document, rest) := readValue (2 * cs.length + 2) cs
  (document, (rest.map fun cs => (skipSpace cs).isEmpty).getD false)

/-! ## Strict JSON -/

mutual

/-- The tree that a document writes, with at most `depth` arrays and objects around any part. -/
def json? (depth : Nat) : Document → Option Json
  | .null => some .null
  | .bool b => some (.bool b)
  | .number n => n.number?.map .number
  | .string s => s.map .string
  | .array items closed =>
    match depth, closed with
    | depth + 1, true => (jsonItems? depth items).map .array
    | _, _ => none
  | .object members closed =>
    match depth, closed with
    | depth + 1, true => (jsonMembers? depth members).map Json.ofMembers
    | _, _ => none
  | .unreadable => none
termination_by structural document => document

/-- The trees of items. -/
def jsonItems? (depth : Nat) : List Document → Option (List Json)
  | [] => some []
  | item :: rest => do return (← json? depth item) :: (← jsonItems? depth rest)
termination_by structural items => items

/-- The trees of members, with their names. -/
def jsonMembers? (depth : Nat) : List (Option String × Document) → Option (List (String × Json))
  | [] => some []
  | (name, value) :: rest => do return (← name, ← json? depth value) :: (← jsonMembers? depth rest)
termination_by structural members => members

end

/-- How many arrays and objects may stand around any part of a JSON text. -/
def maxDepth : Nat := 127

/-! ## Ignored parts -/

mutual

/-- Whether everything in a document is readable and closed. -/
def isComplete : Document → Bool
  | .array items closed => closed && areComplete items
  | .object members closed => closed && membersComplete members
  | .unreadable => false
  | _ => true
termination_by structural document => document

/-- Whether everything in each document is readable and closed. -/
def areComplete : List Document → Bool
  | [] => true
  | item :: rest => isComplete item && areComplete rest
termination_by structural items => items

/-- Whether everything in the value of each member is readable and closed. -/
def membersComplete : List (Option String × Document) → Bool
  | [] => true
  | (_, value) :: rest => isComplete value && membersComplete rest
termination_by structural members => members

end

end Document

/-- The JSON tree that a text writes, if it is JSON from its beginning to its end. -/
def Json.ofText? (text : String) : Option Json :=
  match Document.ofText text with
  | (document, true) => document.json? Document.maxDepth
  | (_, false) => none

end ProviderMock
