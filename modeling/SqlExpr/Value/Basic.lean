-- SUMMARY: SQL values: their natural types, their equality, and their literals in each dialect.
import SqlExpr.DataType
import SqlExpr.Dialect.Basic
import SqlExpr.Text.Hex
import SqlExpr.Value.Double

/-!
# Values

The values that expressions hold and that statements bind. A value can always be
written as a literal; the quotes of a text are doubled, so no text can end its own
literal early.
-/

namespace SqlExpr

inductive Value
  | null
  | bool (b : Bool)
  | int (n : Int)
  | float (x : Double)
  | text (s : String)
  | blob (bytes : List UInt8)
  deriving DecidableEq, Repr, Inhabited

namespace Value

def isNull : Value → Bool
  | .null => true
  | _ => false

/-- The type of a value by itself. `NULL` fits every type and has none. -/
def dataType : Value → DataType
  | .null => .unknown
  | .bool _ => .boolean
  | .int _ => .bigint
  | .float _ => .double
  | .text _ => .varchar none
  | .blob _ => .varbinary none

/-- Equality of values. Floating point numbers are compared as numbers, so a NaN differs
    from itself and `-0.0` equals `0.0`. -/
def same : Value → Value → Bool
  | .float x, .float y => x.sameNumber y
  | v, w => v == w

/-- The value written out in SQL. -/
def literal (d : Dialect) : Value → String
  | .null => "NULL"
  | .bool b => d.booleanLiteral b
  | .int n => toString n
  | .float x => x.literal
  | .text s => Quoted.encode '\'' s
  | .blob bytes => "X'" ++ String.ofList (Hex.encode bytes) ++ "'"

@[simp] theorem isNull_eq_true {v : Value} : v.isNull = true ↔ v = .null := by
  cases v <;> simp [isNull]

/-- Values that hold no floating point number are the same only if they are identical. -/
theorem same_eq_true_of_not_float {v w : Value} (h : ∀ x, v ≠ .float x) :
    v.same w = true ↔ v = w := by
  cases v <;> cases w <;> simp_all [same]

end Value

end SqlExpr
