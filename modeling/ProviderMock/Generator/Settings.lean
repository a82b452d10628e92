import ProviderMock.Text.Blank
import ProviderMock.Text.Numeral

/-!
# Generator settings

The seed of a generator and the length of its strings, as the environment sets them. Each variable
is read for itself; white space around its value does not count. A value that is no number of 64
bits is passed over with a warning, and so is a length of zero.
-/

namespace ProviderMock

/-- The variables of an environment with their values. -/
abbrev Environment := List (String × String)

/-- The settings of a generator. -/
structure Settings where
  /-- the seed, or none for one from entropy -/
  seed : Option UInt64
  stringLength : Nat
  deriving DecidableEq, Repr

/-- A setting that was passed over. -/
inductive SettingsWarning where
  | invalidSeed (value : String) (error : Text.NumeralError)
  | invalidLength (value : String) (error : Text.NumeralError)
  | zeroLength
  deriving DecidableEq, Repr

namespace Settings

/-- The variable that fixes the seed. -/
def seedVariable : String := "MOCK_VALUES_SEED"

/-- The variable that sets the length of strings. -/
def lengthVariable : String := "MOCK_VALUES_STRING_LENGTH"

/-- No seed, and strings of eight characters. -/
def standard : Settings := ⟨none, 8⟩

/-- The number of 64 bits that the value of a variable writes. -/
def number (value : String) : Except Text.NumeralError Nat :=
  Text.numeral UInt64.size (Text.trim value.toList)

/-- The seed that an environment sets, and what is said about it. -/
def readSeed (env : Environment) : Option UInt64 × List SettingsWarning :=
  match env.lookup seedVariable with
  | none => (none, [])
  | some value =>
    match number value with
    | .ok n => (some (UInt64.ofNat n), [])
    | .error e => (none, [.invalidSeed value e])

/-- The length of strings that an environment sets, and what is said about it. -/
def readLength (env : Environment) : Nat × List SettingsWarning :=
  match env.lookup lengthVariable with
  | none => (standard.stringLength, [])
  | some value =>
    match number value with
    | .ok 0 => (standard.stringLength, [.zeroLength])
    | .ok n => (n, [])
    | .error e => (standard.stringLength, [.invalidLength value e])

/-- The settings that an environment makes, and the warnings about it in order. -/
def read (env : Environment) : Settings × List SettingsWarning :=
  let seed := readSeed env
  let length := readLength env
  (⟨seed.1, length.1⟩, seed.2 ++ length.2)

end Settings

namespace SettingsWarning

/-- What a warning says. -/
def message : SettingsWarning → String
  | .invalidSeed _ _ => "ignoring invalid generator seed"
  | .invalidLength _ _ => "ignoring invalid string length"
  | .zeroLength => "ignoring zero string length"

/-- The variable that a warning is about. -/
def variableName : SettingsWarning → String
  | .invalidSeed _ _ => Settings.seedVariable
  | .invalidLength _ _ => Settings.lengthVariable
  | .zeroLength => Settings.lengthVariable

/-- The value that is no number, and why it is none. -/
def details? : SettingsWarning → Option (String × Text.NumeralError)
  | .invalidSeed value e => some (value, e)
  | .invalidLength value e => some (value, e)
  | .zeroLength => none

end SettingsWarning

end ProviderMock
