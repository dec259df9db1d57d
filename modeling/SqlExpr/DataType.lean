-- SUMMARY: SQL data types, the families they fall into, conversion between them, and their SQL names.

/-!
# Data types

The type carried by columns, values and expressions. Types decide which operands
a construct accepts and whether a string is spliced by characters or by bytes.
-/

namespace SqlExpr

/-- An SQL data type. Lengths, precisions and scales may be left open. -/
inductive DataType
  | unknown
  | smallint
  | integer
  | bigint
  | double
  | decimal (precision scale : Option Nat)
  | char (length : Option Nat)
  | varchar (length : Option Nat)
  | text
  | blob
  | binary (length : Option Nat)
  | varbinary (length : Option Nat)
  | boolean
  | row (degree : Nat)
  deriving DecidableEq, Repr, Inhabited

/-- The kinds of value between which no conversion leads. Row types and the
    unknown type belong to no particular family and fall under `any`. -/
inductive Family
  | numeric
  | textual
  | binary
  | boolean
  | any
  deriving DecidableEq, Repr

/-- How error messages describe a value of the family. -/
def Family.description : Family → String
  | .numeric => "a numeric value"
  | .textual => "a character string"
  | .binary => "a binary string"
  | .boolean => "a boolean"
  | .any => "any value"

namespace DataType

/-! ## Families -/

def family : DataType → Family
  | .smallint | .integer | .bigint | .double | .decimal _ _ => .numeric
  | .char _ | .varchar _ | .text => .textual
  | .blob | .binary _ | .varbinary _ => .binary
  | .boolean => .boolean
  | .unknown | .row _ => .any

def isNumeric (t : DataType) : Bool := t.family == .numeric

def isTextual (t : DataType) : Bool := t.family == .textual

def isBinary (t : DataType) : Bool := t.family == .binary

/-- The type has not been resolved yet, as for an untyped `NULL`. -/
def isUnknown : DataType → Bool
  | .unknown => true
  | _ => false

/-- A value of type `t` can take the type `target`: conversion stays within a
    family, between rows of one degree, and is always possible from and to the
    unknown type. -/
def convertsTo : (t target : DataType) → Bool
  | .unknown, _ | _, .unknown => true
  | .row m, .row n => m == n
  | t, target => t.family == target.family

/-- The type itself, or `other` while it is unknown. -/
def orElse : (t other : DataType) → DataType
  | .unknown, other => other
  | t, _ => t

@[simp] theorem isUnknown_eq_true {t : DataType} : t.isUnknown = true ↔ t = .unknown := by
  cases t <;> simp [isUnknown]

@[simp] theorem unknown_orElse (t : DataType) : orElse .unknown t = t := rfl

theorem orElse_of_ne_unknown {t : DataType} (h : t ≠ .unknown) (other : DataType) :
    t.orElse other = t := by
  cases t with
  | unknown => exact absurd rfl h
  | _ => rfl

@[simp] theorem convertsTo_self (t : DataType) : t.convertsTo t = true := by
  cases t <;> simp [convertsTo]

@[simp] theorem unknown_convertsTo (t : DataType) : convertsTo .unknown t = true := by
  cases t <;> rfl

/-! ## SQL names -/

/-- A type name, followed by its length in parentheses when that is fixed. -/
def sized (name : String) : Option Nat → String
  | some n => s!"{name}({n})"
  | none => name

/-- The name of the type in SQL. A scale is written only behind a precision. -/
def sql : DataType → String
  | .unknown => "UNKNOWN"
  | .smallint => "SMALLINT"
  | .integer => "INTEGER"
  | .bigint => "BIGINT"
  | .double => "DOUBLE"
  | .decimal (some p) (some s) => s!"DECIMAL({p}, {s})"
  | .decimal p _ => sized "DECIMAL" p
  | .char n => sized "CHAR" n
  | .varchar n => sized "VARCHAR" n
  | .text => "TEXT"
  | .blob => "BLOB"
  | .binary n => sized "BINARY" n
  | .varbinary n => sized "VARBINARY" n
  | .boolean => "BOOLEAN"
  | .row degree => s!"ROW({degree})"

instance : ToString DataType := ⟨sql⟩

end DataType

end SqlExpr
