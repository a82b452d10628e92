import ProviderMock.Json
import ProviderMock.Double.Text

/-!
# JSON numerals

The spelling of a number in JSON text, and the number it stands for.

* **spelling** — `Numeral.split` takes a numeral off the front of a text: an optional minus, a whole
  part without leading zeros, an optional fraction and an optional exponent.
* **whole numbers** — a numeral that is whole and fits in 64 bits is that whole number, except that
  minus zero is a double.
* **doubles** — every other numeral is read in two steps: the digits up to what fits in 64 bits give
  a whole number, which is rounded to a double and then multiplied or divided by a power of ten. The
  result may be off the nearest double by a little. A result that is too large for a double has no
  reading at all.
-/

namespace ProviderMock.Json

/-- The spelling of a number. -/
structure Numeral where
  negative : Bool
  /-- the digits before the point -/
  whole : List Char
  /-- the digits after the point, if there is one -/
  fraction : Option (List Char)
  /-- the sign and the digits of the exponent, if there is one -/
  exponent : Option (Bool × List Char)
  deriving DecidableEq, Repr

namespace Numeral

/-! ## Spelling -/

/-- The whole part at the front of a text: a zero, or digits that do not start with one. -/
def splitWhole (cs : List Char) : Option (List Char × List Char) :=
  let (digits, rest) := Text.splitDigits cs
  match digits with
  | [] => none
  | '0' :: _ :: _ => none
  | _ => some (digits, rest)

/-- The fraction at the front of a text, if there is one. -/
def splitFraction : List Char → Option (Option (List Char) × List Char)
  | '.' :: tail =>
    let (digits, rest) := Text.splitDigits tail
    if digits.isEmpty then none else some (some digits, rest)
  | cs => some (none, cs)

/-- The exponent at the front of a text, if there is one. -/
def splitExponent : List Char → Option (Option (Bool × List Char) × List Char)
  | [] => some (none, [])
  | c :: tail =>
    if c = 'e' ∨ c = 'E' then
      let (negative, unsigned) := Decimal.splitSign tail
      let (digits, rest) := Text.splitDigits unsigned
      if digits.isEmpty then none else some (some (negative, digits), rest)
    else some (none, c :: tail)

/-- The minus at the front of a text, if there is one. -/
def splitMinus : List Char → Bool × List Char
  | '-' :: rest => (true, rest)
  | cs => (false, cs)

/-- The numeral at the front of a text, and what follows it. -/
def split (cs : List Char) : Option (Numeral × List Char) := do
  let (negative, cs) := splitMinus cs
  let (whole, cs) ← splitWhole cs
  let (fraction, cs) ← splitFraction cs
  let (exponent, cs) ← splitExponent cs
  return (⟨negative, whole, fraction, exponent⟩, cs)

/-! ## Value -/

/-- Continue a whole number by the digits with which it still fits in 64 bits; the first digit with
which it does not, and all after it, are left. -/
def collect (value : Nat) : List Char → Nat × List Char
  | [] => (value, [])
  | c :: rest =>
    let next := 10 * value + Text.digitValue c
    if UInt64.size ≤ next then (value, c :: rest) else collect next rest

/-- A power of ten as a double. -/
def powerOfTen (n : Nat) : Double := Double.ofRatio false (Double.tenPow n) 1

/-- A double divided by `10 ^ n`, by `10 ^ 308` at a time. -/
def divTenPow (x : Double) (n : Nat) : Double :=
  if n ≤ 308 then x.div (powerOfTen n)
  else if x.isZero then x
  else divTenPow (x.div (powerOfTen 308)) (n - 308)
termination_by n
decreasing_by omega

/-- A whole number times a power of ten, rounded first and then scaled; none if it is too large. -/
def scaled (significand : Nat) (exponent : Int) : Option Double :=
  let x := Double.ofRatio false significand 1
  if x.isZero then some x
  else if exponent < 0 then some (divTenPow x exponent.natAbs)
  else if 308 < exponent then none
  else
    let y := x.mul (powerOfTen exponent.natAbs)
    if y.isFinite then some y else none

/-- A double with the sign of the numeral. -/
def signed (n : Numeral) (x : Double) : Double := Double.ofMagnitude n.negative x.magnitude

/-- The number that a double is, if it is finite. -/
def ofFinite? (x : Double) : Option Number :=
  if h : x.isFinite = true then some (.double x h) else none

/-- The exponent of ten. -/
def exponentValue (n : Numeral) : Int :=
  match n.exponent with
  | none => 0
  | some (negative, digits) =>
    if negative then -(Text.ofDigits digits : Int) else Text.ofDigits digits

/-- The double that a numeral stands for, if there is one. -/
def double? (n : Numeral) : Option Double :=
  let (significand, unread) := collect 0 n.whole
  let fraction := n.fraction.getD []
  let (significand, unreadFraction) := collect significand fraction
  let read := fraction.length - unreadFraction.length
  -- an unread digit of the whole part counts for a power of ten, a read one of the fraction against
  (scaled significand (unread.length - read + n.exponentValue)).map n.signed

/-- The number that a numeral stands for, if there is one. -/
def number? (n : Numeral) : Option Number :=
  let magnitude := Text.ofDigits n.whole
  let value : Int := if n.negative then -magnitude else magnitude
  if n.fraction.isNone ∧ n.exponent.isNone ∧ ¬ (n.negative ∧ magnitude = 0) then
    if fits : -0x8000000000000000 ≤ value ∧ value < 0x10000000000000000 then some (.int value fits)
    else n.double?.bind ofFinite?
  else n.double?.bind ofFinite?

end Numeral

end ProviderMock.Json
