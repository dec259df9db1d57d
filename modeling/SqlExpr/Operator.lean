-- SUMMARY: Comparison operators with their strict and factored forms, arithmetic, connectives, and functions.

/-!
# Operators and functions
-/

namespace SqlExpr

/-! ## Comparison -/

/-- A comparison operator. -/
inductive Comparator
  | eq
  | ne
  | gt
  | ge
  | lt
  | le
  deriving DecidableEq, Repr

namespace Comparator

def all : List Comparator := [.eq, .ne, .gt, .ge, .lt, .le]

def symbol : Comparator → String
  | .eq => "="
  | .ne => "<>"
  | .gt => ">"
  | .ge => ">="
  | .lt => "<"
  | .le => "<="

/-- `=` and `<>`. -/
def isEquality : Comparator → Bool
  | .eq | .ne => true
  | _ => false

/-- `<`, `<=`, `>` and `>=`. -/
def isOrdering (op : Comparator) : Bool := !op.isEquality

/-- The order that the comparator asks for, without its equal part: `>=` becomes
    `>` and `<=` becomes `<`. -/
def strict : Comparator → Comparator
  | .gt | .ge => .gt
  | .lt | .le => .lt
  | op => op

/-- The order that the comparator asks for, with the equal part added: `>`
    becomes `>=` and `<` becomes `<=`. -/
def factored : Comparator → Comparator
  | .gt | .ge => .ge
  | .lt | .le => .le
  | op => op

/-- The comparator accepts two values that stand in the order `o`. -/
def accepts : Comparator → (o : Ordering) → Bool
  | .eq, o => o.isEq
  | .ne, o => o.isNe
  | .gt, o => o.isGT
  | .ge, o => o.isGE
  | .lt, o => o.isLT
  | .le, o => o.isLE

/-- The factored form accepts what the strict form accepts, and ties. -/
theorem accepts_factored {op : Comparator} (h : op.isOrdering = true) (o : Ordering) :
    op.factored.accepts o = (op.strict.accepts o || accepts .eq o) := by
  revert h
  cases op <;> cases o <;> decide

end Comparator

/-! ## Arithmetic -/

inductive ArithOp
  | add
  | sub
  deriving DecidableEq, Repr

def ArithOp.symbol : ArithOp → String
  | .add => "+"
  | .sub => "-"

/-! ## Connectives -/

inductive Connective
  | and
  | or
  deriving DecidableEq, Repr

/-! ## Functions

The functions an expression can call. Dialects spell them differently, see
`Dialect.functionName`. -/

inductive Builtin
  /-- Length of a character string in characters. -/
  | charLength
  /-- Length of a binary string in bytes. -/
  | octetLength
  /-- `SUBSTRING(s, start [, length])`, counted from 1. -/
  | substring
  /-- Concatenation of character strings. -/
  | concat
  /-- Concatenation of binary strings. -/
  | binaryConcat
  /-- `INSERT(s, start, length, replacement)`. -/
  | insert
  deriving DecidableEq, Repr

/-- In declaration order. -/
def Builtin.all : List Builtin :=
  [.charLength, .octetLength, .substring, .concat, .binaryConcat, .insert]

/-- The function returns a number of units, whatever string it is given. -/
def Builtin.isLength : Builtin → Bool
  | .charLength | .octetLength => true
  | _ => false

end SqlExpr
