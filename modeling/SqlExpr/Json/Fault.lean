-- SUMMARY: The reasons why a JSON text is no record of the wanted type, and their wording.
import SqlExpr.Json.Token
import SqlExpr.Text.Printable

/-!
# Rejected records

A text is malformed, or it is well formed up to a value of the wrong shape.
-/

namespace SqlExpr.Json

/-- A value that is met where another one is wanted. -/
inductive FoundValue
  | null
  | bool (b : Bool)
  | number (n : NumberValue)
  | string (s : String)
  | sequence
  | map
  deriving DecidableEq, Repr

def FoundValue.description : FoundValue → String
  | .null => "null"
  | .bool b => s!"boolean `{b}`"
  | .number (.natural n) => s!"integer `{n}`"
  | .number (.negative n) => s!"integer `-{n}`"
  | .number (.float x) =>
    let text := x.compact
    s!"floating point `{text}`"
  | .string s => "string " ++ Printable.quote s
  | .sequence => "sequence"
  | .map => "map"

inductive WantedValue
  /-- An unsigned integer of 64 bits. -/
  | unsigned
  | boolean
  /-- The empty content of an alternative. -/
  | unit
  | record (name : String)
  deriving DecidableEq, Repr

def WantedValue.description : WantedValue → String
  | .unsigned => "usize"
  | .boolean => "a boolean"
  | .unit => "unit"
  | .record name => s!"struct {name}"

/-- Why a text is rejected. -/
inductive Fault
  /-- The text is not well formed, or has no value where an alternative is named. -/
  | malformed
  | duplicateField (key : String)
  /-- The name is none of the known ones. -/
  | unknownVariant (name : String) (known : List String)
  | invalidType (found : FoundValue) (wanted : WantedValue)
  /-- The integer `-n` is given where an unsigned one is wanted. -/
  | negative (n : Nat)
  deriving DecidableEq, Repr

namespace Fault

/-- The text is well formed as far as it was read. -/
def isData : Fault → Bool
  | .malformed => false
  | _ => true

/-- A list of names to choose from. -/
def expectedNames : List String → String
  | [a, b] => s!"expected `{a}` or `{b}`"
  | names => "expected one of " ++ ", ".intercalate (names.map fun name => s!"`{name}`")

/-- What is wrong, for texts that are well formed as far as they were read. -/
def reason? : Fault → Option String
  | .malformed => none
  | .duplicateField key => some s!"duplicate field `{key}`"
  | .unknownVariant name known =>
    let expected := expectedNames known
    some s!"unknown variant `{name}`, {expected}"
  | .invalidType found wanted =>
    let foundText := found.description
    let wantedText := wanted.description
    some s!"invalid type: {foundText}, expected {wantedText}"
  | .negative n => some s!"invalid value: integer `-{n}`, expected usize"

end Fault

end SqlExpr.Json
