-- SUMMARY: The ten kinds of nodes and their names.
import SqlExpr.Expr.Basic

/-!
# Node kinds
-/

namespace SqlExpr

inductive Kind
  | column
  | value
  | function
  | arithmetic
  | compare
  | logical
  | not
  | row
  | overlay
  | rowComparison
  deriving DecidableEq, Repr

/-- The name of a kind of node, as error messages give it. -/
def Kind.name : Kind → String
  | .column => "COLUMN"
  | .value => "VALUE"
  | .function => "FUNCTION"
  | .arithmetic => "ARITHMETIC"
  | .compare => "COMPARE"
  | .logical => "LOGICAL"
  | .not => "NOT"
  | .row => "ROW"
  | .overlay => "OVERLAY"
  | .rowComparison => "ROW COMPARISON"

def Expr.kind : Expr → Kind
  | .column _ => .column
  | .constant _ => .value
  | .call _ _ => .function
  | .arith _ _ _ => .arithmetic
  | .compare _ _ _ => .compare
  | .logical _ _ _ => .logical
  | .not _ => .not
  | .row _ => .row
  | .overlay _ _ _ _ => .overlay
  | .rowCompare _ _ _ => .rowComparison

end SqlExpr
