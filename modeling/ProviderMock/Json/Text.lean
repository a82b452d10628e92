import ProviderMock.Json
import ProviderMock.Double.Text

/-!
# JSON as text

The compact form of JSON: no space anywhere, members in the order of the object, and inside strings
only the quote, the backslash and control characters escaped.
-/

namespace ProviderMock.Json

/-- Doubles keep a point; they are written out while the first digit counts `10 ^ -5` to
`10 ^ 15`. -/
def numberLayout : Double.Layout where
  positional exponent := -5 ≤ exponent && exponent ≤ 15
  pointZero := true
  tie := .even

/-- The text of a number. -/
def Number.text : Number → List Char
  | .int n _ => (toString n).toList
  | .double x _ => x.text numberLayout

/-- How one character is written in a string. -/
def escapeChar (c : Char) : List Char :=
  match c with
  | '"' => ['\\', '"']
  | '\\' => ['\\', '\\']
  | '\x08' => ['\\', 'b']
  | '\x0c' => ['\\', 'f']
  | '\n' => ['\\', 'n']
  | '\r' => ['\\', 'r']
  | '\t' => ['\\', 't']
  | c =>
    if c.toNat < 0x20 then
      ['\\', 'u', '0', '0', Nat.digitChar (c.toNat / 16), Nat.digitChar (c.toNat % 16)]
    else [c]

/-- A string between quotes. -/
def stringText (s : String) : List Char := '"' :: (s.toList.flatMap escapeChar ++ ['"'])

mutual

/-- The compact text of a tree. -/
def chars : Json → List Char
  | .null => ['n', 'u', 'l', 'l']
  | .bool true => ['t', 'r', 'u', 'e']
  | .bool false => ['f', 'a', 'l', 's', 'e']
  | .number n => n.text
  | .string s => stringText s
  | .array [] => ['[', ']']
  | .array (item :: items) => '[' :: (chars item ++ itemsChars items)
  | .object [] => ['\x7b', '\x7d']
  | .object ((name, value) :: members) =>
    '\x7b' :: (stringText name ++ ':' :: (chars value ++ membersChars members))
termination_by structural json => json

/-- The text of the items after the first, and the end of the array. -/
def itemsChars : List Json → List Char
  | [] => [']']
  | item :: items => ',' :: (chars item ++ itemsChars items)
termination_by structural items => items

/-- The text of the members after the first, and the end of the object. -/
def membersChars : List (String × Json) → List Char
  | [] => ['\x7d']
  | (name, value) :: members =>
    ',' :: (stringText name ++ ':' :: (chars value ++ membersChars members))
termination_by structural members => members

end

/-- The compact text of a tree. -/
def text (json : Json) : String := String.ofList json.chars

end ProviderMock.Json
