import ProviderMock.Conversion
import ProviderMock.SourceRange

/-!
# Diagnostics

The problems found in replacement values. They say what was ignored and never change a result.

A collection of diagnostics keeps them in the order they were found and drops exact repeats: a
replacement that every element of a list shares is wrong in the same way for each of them, and is
reported once, at the first.
-/

namespace ProviderMock

/-- How bad a problem is. -/
inductive Severity where
  | error
  deriving DecidableEq, Repr

/-- The name of a severity in data. -/
def Severity.name : Severity → String
  | .error => "error"

/-- The name of a severity in messages. -/
def Severity.label : Severity → String
  | .error => "Error"

/-- A problem found in a replacement value. -/
structure Diagnostic where
  severity : Severity
  summary : String
  detail : String
  /-- the place in the result where it was found -/
  path : Path
  deriving DecidableEq, Repr

namespace Diagnostic

/-- The summary of all problems with replacement values. -/
def invalidReplacement : String := "Invalid mock/override field"

/-- An error. -/
def error (summary detail : String) (path : Path) : Diagnostic := ⟨.error, summary, detail, path⟩

/-- The replacement as a whole is neither absent nor null nor an object. -/
def nonObject (found : Ty) : Diagnostic :=
  error invalidReplacement
    ("The requested replacement value must be an object type, but was " ++
      found.friendlyName ++ ".")
    Path.root

/-- A part of the replacement is no object where a nested object belongs. -/
def nestedShape (path : Path) (range : SourceRange) (found : Ty) : Diagnostic :=
  error invalidReplacement
    ("Terraform expected an object type at " ++ path.replacementDisplay ++
      " within the replacement value defined at " ++ range.display ++ ", but found " ++
      found.friendlyName ++ ".")
    path

/-- A part of the replacement does not convert to the declared type. -/
def typeMismatch (want : Ty) (path : Path) (range : SourceRange) (cause : ConversionError) :
    Diagnostic :=
  error invalidReplacement
    ("Terraform could not replace the target type " ++ want.friendlyName ++
      " with the replacement value defined at " ++ path.replacementDisplay ++ " within " ++
      range.display ++ ": " ++ cause.display ++ ".")
    path

/-- The text of a diagnostic. -/
def display (d : Diagnostic) : String := d.severity.label ++ ": " ++ d.summary ++ "; " ++ d.detail

/-- Whether two diagnostics say the same, wherever they were found. -/
def repeats (d e : Diagnostic) : Bool :=
  d.severity = e.severity ∧ d.summary = e.summary ∧ d.detail = e.detail

end Diagnostic

/-- A repeat agrees in all that is said. -/
theorem Diagnostic.repeats_iff {d e : Diagnostic} :
    d.repeats e = true ↔ d.severity = e.severity ∧ d.summary = e.summary ∧ d.detail = e.detail := by
  simp [Diagnostic.repeats]

/-- Diagnostics in the order they were found. -/
abbrev Diagnostics := List Diagnostic

namespace Diagnostics

/-- Add a diagnostic, unless it is a repeat. -/
def push (ds : Diagnostics) (d : Diagnostic) : Diagnostics :=
  if ds.any (·.repeats d) then ds else ds ++ [d]

/-- Add diagnostics one after the other. -/
def extend (ds more : Diagnostics) : Diagnostics := more.foldl push ds

/-- Whether there is an error. -/
def hasErrors (ds : Diagnostics) : Bool := ds.any fun d => d.severity = .error

/-- The details in order. -/
def details (ds : Diagnostics) : List String := ds.map (·.detail)

end Diagnostics

end ProviderMock
