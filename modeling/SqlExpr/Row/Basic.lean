-- SUMMARY: Rows and row comparisons: degrees that agree, and constants that take the type of the field opposite.
import SqlExpr.BuildError

/-!
# Rows and their comparison

A row is a list of one or more fields. Two rows of the same degree can be compared;
`RowCompare.new` gives each constant the type of the field it meets and rejects a
constant that cannot take it.
-/

namespace SqlExpr

/-! ## Rows -/

/-- A row value. -/
structure Row where
  fields : List Expr
  deriving Repr

namespace Row

/-- A row needs a field. -/
def new : (fields : List Expr) → Except BuildError Row
  | [] => .error .emptyRow
  | fields => .ok ⟨fields⟩

/-- Rows are taken as they are; any other expression is a row of degree one. -/
def ofExpr (e : Expr) : Row := ⟨e.rowFields⟩

def toExpr (r : Row) : Expr := .row r.fields

def degree (r : Row) : Nat := r.fields.length

@[simp] theorem ofExpr_toExpr (r : Row) : ofExpr r.toExpr = r := rfl

end Row

/-! ## Conformance -/

/-- Convert a constant to the type `target` of the field it is compared with. `NULL` takes
    every type, another constant a type that its own converts to; the error is the type of one
    that does not. Anything but a constant, and everything beside an unknown type, stays. -/
def Expr.conformed (target : DataType) : Expr → Except DataType Expr
  | .constant c =>
    if target.isUnknown then .ok (.constant c)
    else if c.value.isNull || c.dataType.convertsTo target then
      .ok (.constant { c with dataType := target })
    else .error c.dataType
  | e => .ok e

namespace Row

/-- Conform fields to those at the same positions of another row. `operand` is the side of the
    comparison that is reported. -/
def conformFields (operand : Nat) : (fields models : List Expr) → Except BuildError (List Expr)
  | field :: fields, model :: models => do
    let target := model.dataType
    let field ← (field.conformed target).mapError
      (.typeConformance .rowComparison operand (.ofFamily target.family))
    return field :: (← conformFields operand fields models)
  | _, _ => .ok []

/-- Conform the constants of a row to the fields of `model`. -/
def conformTo (r : Row) (operand : Nat) (model : Row) : Except BuildError Row :=
  Row.mk <$> conformFields operand r.fields model.fields

end Row

/-! ## Row comparisons -/

/-- A comparison of two rows. -/
structure RowCompare where
  op : Comparator
  left : Row
  right : Row
  deriving Repr

namespace RowCompare

def toExpr (c : RowCompare) : Expr := .rowCompare c.op c.left.fields c.right.fields

/-- The row comparison that an expression is, if it is one. -/
def ofExpr? : Expr → Option RowCompare
  | .rowCompare op left right => some ⟨op, ⟨left⟩, ⟨right⟩⟩
  | _ => none

def arity : Nat := 2

/-- The degree of both rows. -/
def degree (c : RowCompare) : Nat := c.left.degree

/-- Compare two rows of the same degree. Constants on the right take the types of the fields
    on the left, then constants on the left those on the right. -/
def new (op : Comparator) (left right : Row) : Except BuildError RowCompare :=
  if left.degree = right.degree then do
    let right ← right.conformTo 1 left
    let left ← left.conformTo 0 right
    return { op, left, right }
  else .error (.arityMismatch left.degree right.degree)

/-- The comparison with another row, or another scalar as a row of degree one, on one side. -/
def setOperand (c : RowCompare) (index : Nat) (value : Expr) : Except BuildError RowCompare :=
  match index with
  | 0 => new c.op (.ofExpr value) c.right
  | 1 => new c.op c.left (.ofExpr value)
  | _ => .error (.operandIndex .rowComparison index arity)

end RowCompare

end SqlExpr
