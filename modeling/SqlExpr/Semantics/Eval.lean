-- SUMMARY: What an expression evaluates to, given the data of its columns.
import SqlExpr.Expr.Basic
import SqlExpr.Semantics.Datum

/-!
# Evaluation

`Expr.eval` gives the datum of an expression where columns have data, or `none` where the
types of operands do not fit. Functions, arithmetic and comparisons of a `NULL` are
`NULL`; conditions are joined in three-valued logic.
-/

namespace SqlExpr

namespace Datum

/-! ## Operators -/

def arith? (op : ArithOp) (l r : Datum) : Option Datum := do
  match ← l.int?, ← r.int? with
  | some m, some n =>
    match op with
    | .add => return .int (m + n)
    | .sub => return .int (m - n)
  | _, _ => return .null

def compare? (op : Comparator) (l r : Datum) : Option Datum := do
  return ofTruth ((← l.order? r).map op.accepts)

def logical? (op : Connective) (l r : Datum) : Option Datum := do
  return ofTruth (Truth.connect op (← l.truth?) (← r.truth?))

def not? (d : Datum) : Option Datum := do
  return ofTruth (← d.truth?).not

/-! ## Functions -/

/-- The function on data none of which is `NULL`. -/
def result? : Builtin → List Datum → Option Datum
  | .charLength, [.text u] | .octetLength, [.text u] => some (.int u.length)
  | .charLength, [.bytes u] | .octetLength, [.bytes u] => some (.int u.length)
  | .substring, [.text u, .int start] => some (.text (Splice.sliceFrom u start))
  | .substring, [.bytes u, .int start] => some (.bytes (Splice.sliceFrom u start))
  | .substring, [.text u, .int start, .int n] => some (.text (Splice.slice u start (start + n)))
  | .substring, [.bytes u, .int start, .int n] => some (.bytes (Splice.slice u start (start + n)))
  | .concat, [.text u, .text v] | .binaryConcat, [.text u, .text v] => some (.text (u ++ v))
  | .concat, [.bytes u, .bytes v] | .binaryConcat, [.bytes u, .bytes v] => some (.bytes (u ++ v))
  | .insert, [.text u, .int start, .int n, .text v] => some (.text (Splice.insert u v start n))
  | .insert, [.bytes u, .int start, .int n, .bytes v] => some (.bytes (Splice.insert u v start n))
  | _, _ => none

/-- The function on data; `NULL` if one of them is. -/
def call? (f : Builtin) (args : List Datum) : Option Datum :=
  if .null ∈ args then some .null else result? f args

/-! ## Constructs -/

def isIntOrNull : Datum → Bool
  | .int _ | .null => true
  | _ => false

def isTextOrNull : Datum → Bool
  | .text _ | .null => true
  | _ => false

def isBytesOrNull : Datum → Bool
  | .bytes _ | .null => true
  | _ => false

/-- The operands of an overlay fit: two strings of one kind, and numbers. -/
def overlayFits (source replacement start : Datum) (length : Option Datum) : Bool :=
  (source.isTextOrNull && replacement.isTextOrNull ||
    source.isBytesOrNull && replacement.isBytesOrNull) &&
  start.isIntOrNull && length.all isIntOrNull

/-- The splice of two strings; by default as many units are replaced as the replacement has.
    `NULL` if one of the operands is. -/
def overlay? (source replacement start : Datum) (length : Option Datum) : Option Datum :=
  if overlayFits source replacement start length then
    match source, replacement, start, length with
    | .text u, .text v, .int start, none => some (.text (Splice.splice u v start v.length))
    | .text u, .text v, .int start, some (.int n) => some (.text (Splice.splice u v start n))
    | .bytes u, .bytes v, .int start, none => some (.bytes (Splice.splice u v start v.length))
    | .bytes u, .bytes v, .int start, some (.int n) => some (.bytes (Splice.splice u v start n))
    | _, _, _, _ => some .null
  else none

def rowCompare? (op : Comparator) (left right : List Datum) : Option Datum := do
  return ofTruth (RowOrder.compare op (← RowOrder.orders? left right))

end Datum

namespace Expr

mutual
/-- The datum of an expression where columns have the data `env`. A row by itself has none. -/
def eval (env : Column → Datum) : Expr → Option Datum
  | .column c => some (env c)
  | .constant c => c.value.datum?
  | .call f args => do Datum.call? f (← evalList env args)
  | .arith op l r => do Datum.arith? op (← l.eval env) (← r.eval env)
  | .compare op l r => do Datum.compare? op (← l.eval env) (← r.eval env)
  | .logical op l r => do Datum.logical? op (← l.eval env) (← r.eval env)
  | .not e => do Datum.not? (← e.eval env)
  | .row _ => none
  | .overlay source replacement start length => do
    Datum.overlay? (← source.eval env) (← replacement.eval env) (← start.eval env)
      (← evalOption env length)
  | .rowCompare op left right => do
    Datum.rowCompare? op (← evalList env left) (← evalList env right)

def evalList (env : Column → Datum) : List Expr → Option (List Datum)
  | [] => some []
  | e :: es => do return (← e.eval env) :: (← evalList env es)

def evalOption (env : Column → Datum) : Option Expr → Option (Option Datum)
  | none => some none
  | some e => do return some (← e.eval env)
end

end Expr

end SqlExpr
