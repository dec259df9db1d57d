-- SUMMARY: Expression trees: columns, constants, the node kinds, and the type each expression evaluates to.
import SqlExpr.Operator
import SqlExpr.Value.Basic

/-!
# Expressions

Trees are plain values. `Expr` has one constructor for every kind of node; the two
constructs that check their operands, `OVERLAY` and row comparisons, are built
through `Overlay.ofOperands` and `RowCompare.new`.
-/

namespace SqlExpr

/-- A reference to a column, qualified by a table or not. -/
structure Column where
  table : Option String := none
  name : String
  /-- The declared type. -/
  dataType : DataType := .unknown
  deriving DecidableEq, Repr

/-- A value in an expression, with the type it takes there. -/
structure Constant where
  value : Value
  dataType : DataType
  /-- The value is always written out and never bound. -/
  inline : Bool
  deriving DecidableEq, Repr

namespace Constant

/-- A value to bind, of its natural type. -/
def bind (v : Value) : Constant := ⟨v, v.dataType, false⟩

/-- A value to write out, of its natural type. -/
def literal (v : Value) : Constant := ⟨v, v.dataType, true⟩

/-- A `NULL` of a given type. -/
def null (t : DataType) : Constant := ⟨.null, t, false⟩

end Constant

/-- An SQL expression. -/
inductive Expr
  | column (c : Column)
  | constant (c : Constant)
  /-- The call of a function. -/
  | call (f : Builtin) (args : List Expr)
  /-- Addition or subtraction. -/
  | arith (op : ArithOp) (left right : Expr)
  /-- The comparison of two scalars. -/
  | compare (op : Comparator) (left right : Expr)
  /-- Two conditions joined by `AND` or `OR`. -/
  | logical (op : Connective) (left right : Expr)
  /-- `NOT condition`. -/
  | not (condition : Expr)
  /-- The row `(a, b, ...)`. -/
  | row (fields : List Expr)
  /-- `OVERLAY(source PLACING replacement FROM start [FOR length])`: the units of `source`
      from the 1-based position `start` on, `length` of them, replaced. -/
  | overlay (source replacement start : Expr) (length : Option Expr)
  /-- The comparison of two rows, each given by its fields. -/
  | rowCompare (op : Comparator) (left right : List Expr)
  deriving Repr, Inhabited

namespace Expr

/-! ## Builders -/

/-- A value to bind. -/
def bind (v : Value) : Expr := .constant (.bind v)

/-- A value to write out. -/
def literal (v : Value) : Expr := .constant (.literal v)

/-- A `NULL` of a given type. -/
def null (t : DataType) : Expr := .constant (.null t)

def add (left right : Expr) : Expr := .arith .add left right

def sub (left right : Expr) : Expr := .arith .sub left right

def and (left right : Expr) : Expr := .logical .and left right

def or (left right : Expr) : Expr := .logical .or left right

/-! ## Types -/

/-- The type an expression evaluates to. Functions on strings keep the type of their first
    argument; a sum or an overlay takes the type of its first operand of known type. -/
def dataType : Expr → DataType
  | .column c => c.dataType
  | .constant c => c.dataType
  | .call f [] => if f.isLength then .integer else .unknown
  | .call f (a :: _) => if f.isLength then .integer else a.dataType
  | .arith _ l r => l.dataType.orElse r.dataType
  | .compare _ _ _ | .logical _ _ _ | .not _ | .rowCompare _ _ _ => .boolean
  | .row fields => .row fields.length
  | .overlay source replacement _ _ => source.dataType.orElse replacement.dataType

/-! ## Views -/

/-- The fields of a row; any other expression is its own only field. -/
def rowFields : Expr → List Expr
  | .row fields => fields
  | e => [e]

def isLogical : Expr → Bool
  | .logical _ _ _ => true
  | _ => false

/-- The conditions that an `AND` or `OR` chain joins, from left to right. Anything but a
    chain of the connective `op` is a chain of one. -/
def chain (op : Connective) : Expr → List Expr
  | .logical op' l r => if op' = op then l.chain op ++ r.chain op else [.logical op' l r]
  | e => [e]

/-- No link of a chain is itself a chain of the same connective. -/
theorem ne_logical_of_mem_chain {op : Connective} {e x : Expr} (h : x ∈ e.chain op) (l r : Expr) :
    x ≠ .logical op l r := by
  fun_induction chain op e with
  | case1 l' r' ihl ihr =>
    rcases List.mem_append.1 h with h | h
    · exact ihl h
    · exact ihr h
  | case2 op' l' r' hne => grind
  | case3 e he => grind

end Expr

end SqlExpr
