import ProviderMock.SourceRange
import ProviderMock.Json

/-!
# Source ranges as JSON

A range is written as an object with the file name, the start and the end, and a position as an
object with the line, the column and the byte. All of them must be there to be read; members that
mean nothing here are ignored, and an array stands for an object with the members in that order.

The first thing wrong decides what is reported. The items of an array are read in their order, so an
item that cannot be read is reported before it is seen that there are too few of them or too many.
-/

namespace ProviderMock

/-- Why a JSON tree is no range. -/
inductive RangeError where
  /-- a member is missing -/
  | missingField (name : String)
  /-- something is of the wrong kind -/
  | malformed
  deriving DecidableEq, Repr

/-- What is said about JSON that is no range, where that is settled. -/
def RangeError.message? : RangeError → Option String
  | .missingField name => some ("missing field `" ++ name ++ "`")
  | .malformed => none

namespace SourceRange

/-- The natural number that a JSON tree is. -/
def naturalOf : Json → Except RangeError Nat
  | .number (.int n _) => if 0 ≤ n then .ok n.toNat else .error .malformed
  | _ => .error .malformed

/-- The string that a JSON tree is. -/
def stringOf : Json → Except RangeError String
  | .string s => .ok s
  | _ => .error .malformed

/-- The value of a member that must be there. -/
def required {α : Type} (name : String) : Option α → Except RangeError α
  | some a => .ok a
  | none => .error (.missingField name)

end SourceRange

namespace SourcePosition

open SourceRange (naturalOf required)

/-- The position that members write, with what was read before them. -/
def ofMembers (line column byte : Option Nat) :
    List (String × Json) → Except RangeError SourcePosition
  | [] => do
    let line ← required "line" line
    let column ← required "column" column
    let byte ← required "byte" byte
    return ⟨line, column, byte⟩
  | (name, json) :: rest =>
    match name with
    | "line" => do ofMembers (some (← naturalOf json)) column byte rest
    | "column" => do ofMembers line (some (← naturalOf json)) byte rest
    | "byte" => do ofMembers line column (some (← naturalOf json)) rest
    | _ => ofMembers line column byte rest

/-- The position that a JSON tree writes. -/
def ofJson : Json → Except RangeError SourcePosition
  | .object members => ofMembers none none none members
  | .array [line, column, byte] => do
    return ⟨← naturalOf line, ← naturalOf column, ← naturalOf byte⟩
  | _ => .error .malformed

/-- The JSON of a position. -/
def toJson (p : SourcePosition) : Json :=
  .object [("line", .ofNat p.line), ("column", .ofNat p.column), ("byte", .ofNat p.byte)]

end SourcePosition

namespace SourceRange

/-- The range that members write, with what was read before them. -/
def ofMembers (filename : Option String) (start stop : Option SourcePosition) :
    List (String × Json) → Except RangeError SourceRange
  | [] => do
    let filename ← required "filename" filename
    let start ← required "start" start
    let stop ← required "end" stop
    return ⟨filename, start, stop⟩
  | (name, json) :: rest =>
    match name with
    | "filename" => do ofMembers (some (← stringOf json)) start stop rest
    | "start" => do ofMembers filename (some (← SourcePosition.ofJson json)) stop rest
    | "end" => do ofMembers filename start (some (← SourcePosition.ofJson json)) rest
    | _ => ofMembers filename start stop rest

/-- The range that a JSON tree writes. -/
def ofJson : Json → Except RangeError SourceRange
  | .object members => ofMembers none none none members
  | .array [filename, start] => do
    let _ ← stringOf filename
    let _ ← SourcePosition.ofJson start
    .error .malformed
  | .array (filename :: start :: stop :: rest) => do
    let filename ← stringOf filename
    let start ← SourcePosition.ofJson start
    let stop ← SourcePosition.ofJson stop
    if rest.isEmpty then return ⟨filename, start, stop⟩ else .error .malformed
  | _ => .error .malformed

/-- The JSON of a range. -/
def toJson (r : SourceRange) : Json :=
  .object [("filename", .string r.filename), ("start", r.start.toJson), ("end", r.stop.toJson)]

end SourceRange

end ProviderMock
