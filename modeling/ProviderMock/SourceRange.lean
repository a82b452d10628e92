/-!
# Source ranges

The span of a configuration file that a replacement value was read from, as diagnostics quote it.
-/

namespace ProviderMock

/-- A position in a source file. -/
structure SourcePosition where
  line : Nat
  column : Nat
  byte : Nat
  deriving DecidableEq, Repr

/-- A span of a source file. -/
structure SourceRange where
  filename : String
  start : SourcePosition
  stop : SourcePosition
  deriving DecidableEq, Repr

namespace SourceRange

/-- The range of a replacement that is defined nowhere. -/
def unspecified : SourceRange := ⟨"", ⟨0, 0, 0⟩, ⟨0, 0, 0⟩⟩

/-- The file, the line and the columns; the last line only when it is another one. -/
def display (range : SourceRange) : String :=
  let first :=
    range.filename ++ ":" ++ toString range.start.line ++ "," ++ toString range.start.column
  if range.start.line = range.stop.line then
    first ++ "-" ++ toString range.stop.column
  else
    first ++ "-" ++ toString range.stop.line ++ "," ++ toString range.stop.column

end SourceRange

end ProviderMock
