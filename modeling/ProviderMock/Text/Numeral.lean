import ProviderMock.Text.Digits

/-!
# Bounded numerals

The text of a natural number below a bound: an optional `+` and one or more decimal digits. A text
that is none is refused for one of three causes, and of a digit that is none and a value that is
too large the one met first decides.
-/

namespace ProviderMock.Text

/-- Why a text is no numeral. -/
inductive NumeralError where
  /-- there is no character at all -/
  | empty
  /-- a character is no digit -/
  | invalidDigit
  /-- the value reaches the bound -/
  | tooLarge
  deriving DecidableEq, Repr

/-- What is said about a text that is no numeral. -/
def NumeralError.message : NumeralError → String
  | .empty => "cannot parse integer from empty string"
  | .invalidDigit => "invalid digit found in string"
  | .tooLarge => "number too large to fit in target type"

/-- Continue a numeral below `bound` whose digits so far have the value `value`. -/
def numeralFrom (bound value : Nat) : List Char → Except NumeralError Nat
  | [] => .ok value
  | c :: rest =>
    if isDigit c then
      let next := 10 * value + digitValue c
      -- the bound is met before the digits that follow are looked at
      if bound ≤ next then .error .tooLarge else numeralFrom bound next rest
    else .error .invalidDigit

/-- The value of a numeral below `bound`. -/
def numeral (bound : Nat) : List Char → Except NumeralError Nat
  | [] => .error .empty
  | ['+'] => .error .invalidDigit
  | '+' :: rest => numeralFrom bound 0 rest
  | cs => numeralFrom bound 0 cs

end ProviderMock.Text
