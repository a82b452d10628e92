import ProviderMock.Double.Rounding
import ProviderMock.Double.Shortest

/-!
# Doubles as text

* **reading** — `Double.ofText` takes a sign, and then a decimal with an optional point and an
  optional exponent, or the name of an infinity or of not-a-number in any case. A decimal is rounded
  to the nearest double.
* **writing** — `Double.text` writes the shortest decimal that reads back, in a `Double.Layout`:
  where the exponent is written out, whether whole numbers keep a point, and how ties go.
-/

namespace ProviderMock

/-! ## Reading -/

namespace Decimal

/-- The sign at the front of a text, and what follows it. -/
def splitSign : List Char → Bool × List Char
  | '-' :: rest => (true, rest)
  | '+' :: rest => (false, rest)
  | cs => (false, cs)

/-- The exponent that ends a decimal, if it is well formed. -/
def exponentOf : List Char → Option Int
  | [] => some 0
  | c :: rest =>
    if c = 'e' ∨ c = 'E' then
      let (negative, digits) := splitSign rest
      if digits.isEmpty ∨ !digits.all Text.isDigit then none
      else some (if negative then -(Text.ofDigits digits : Int) else Text.ofDigits digits)
    else none

/-- A decimal without its sign. A digit must stand before or after the point. -/
def ofText (cs : List Char) : Option Decimal :=
  let (whole, rest) := Text.splitDigits cs
  let (fraction, rest) :=
    match rest with
    | '.' :: tail => Text.splitDigits tail
    | _ => ([], rest)
  if whole.isEmpty && fraction.isEmpty then none
  else (exponentOf rest).map fun e => ⟨Text.ofDigits (whole ++ fraction), e - fraction.length⟩

end Decimal

namespace Double

/-- The double nearest to a decimal with a sign. Decimals beyond every double are settled by the
exponent of their first digit. -/
def ofDecimal (negative : Bool) (d : Decimal) : Double :=
  if d.digits = 0 then zero negative
  else
    let first := d.exponent + Text.digitCount d.digits
    if 400 < first then infinity negative
    else if first < -400 then zero negative
    else ofRatio negative (d.digits * tenPow d.exponent) (tenPow (-d.exponent))

/-- The double that a text writes. -/
def ofText (cs : List Char) : Option Double :=
  let (negative, body) := Decimal.splitSign cs
  let name := String.ofList (body.map Char.toLower)
  if name = "inf" ∨ name = "infinity" then some (infinity negative)
  else if name = "nan" then some nan
  else (Decimal.ofText body).map (ofDecimal negative)

/-! ## Writing -/

/-- The choices that a written form of finite doubles makes. -/
structure Layout where
  /-- whether a number whose first digit counts `10 ^ exponent` is written without an exponent -/
  positional : Int → Bool
  /-- whether whole numbers without an exponent end in a point and a zero -/
  pointZero : Bool
  /-- which of two equally near decimals is written -/
  tie : Tie

/-- `count` zeros. -/
def zeros (count : Int) : List Char := List.replicate count.toNat '0'

/-- Digits whose first one counts `10 ^ exponent`, written out with a point where one is needed. -/
def positionalText (digits : List Char) (exponent : Int) (pointZero : Bool) : List Char :=
  if exponent < 0 then
    ['0', '.'] ++ zeros (-exponent - 1) ++ digits
  else if digits.length ≤ exponent + 1 then
    digits ++ zeros (exponent + 1 - digits.length) ++ if pointZero then ['.', '0'] else []
  else
    digits.take (exponent + 1).toNat ++ '.' :: digits.drop (exponent + 1).toNat

/-- Digits whose first one counts `10 ^ exponent`, written with one digit before the point and the
exponent with its sign. -/
def scientificText (digits : List Char) (exponent : Int) : List Char :=
  let point :=
    match digits.tail with
    | [] => []
    | rest => '.' :: rest
  digits.take 1 ++ point ++ ['e', if exponent < 0 then '-' else '+'] ++
    Nat.toDigits 10 exponent.natAbs

/-- The text of a finite double without its sign. -/
def magnitudeText (layout : Layout) (x : Double) : List Char :=
  if x.isZero then positionalText ['0'] 0 layout.pointZero
  else
    let d := x.shortest layout.tie
    let digits := Nat.toDigits 10 d.digits
    let exponent := d.exponent + digits.length - 1
    if layout.positional exponent then positionalText digits exponent layout.pointZero
    else scientificText digits exponent

/-- The text of a finite double. -/
def text (layout : Layout) (x : Double) : List Char :=
  if x.isNegative then '-' :: x.magnitudeText layout else x.magnitudeText layout

end Double

end ProviderMock
