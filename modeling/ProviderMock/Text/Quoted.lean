import ProviderMock.Text.Hidden

/-!
# Quoted text

A text between double quotes, the way messages show names and keys. The quote, the backslash and
four control characters are written with a backslash and a letter, every other hidden character by
its code point in hexadecimal, and all else stands for itself.
-/

namespace ProviderMock.Text

/-- How one character is written inside quotes. -/
def escape (c : Char) : List Char :=
  match c with
  | '"' => ['\\', '"']
  | '\\' => ['\\', '\\']
  | '\n' => ['\\', 'n']
  | '\r' => ['\\', 'r']
  | '\t' => ['\\', 't']
  | '\x00' => ['\\', '0']
  | c => if isHidden c then ['\\', 'u', '\x7b'] ++ Nat.toDigits 16 c.toNat ++ ['\x7d'] else [c]

/-- A text between double quotes. -/
def quote (s : String) : String :=
  String.ofList ('"' :: (s.toList.flatMap escape ++ ['"']))

end ProviderMock.Text
