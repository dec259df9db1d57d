-- SUMMARY: Overlays: which operands they take, and the types that untyped operands get.
import SqlExpr.BuildError

/-!
# Overlays

`OVERLAY(source PLACING replacement FROM start [FOR length])` splices a string. Both
strings are character strings or both are binary strings; position and length are
numbers. `Overlay.ofOperands` checks this as far as types are known, and gives
operands without a type the one that their position asks for.
-/

namespace SqlExpr

/-- Give a constant of unknown type the type `t`. Anything else stays as it is. -/
def Expr.retyped (t : DataType) : Expr → Expr
  | .constant c => .constant (if c.dataType.isUnknown then { c with dataType := t } else c)
  | e => e

/-- The operands of an overlay. -/
structure Overlay where
  source : Expr
  replacement : Expr
  start : Expr
  length : Option Expr
  deriving Repr

namespace Overlay

def toExpr (o : Overlay) : Expr := .overlay o.source o.replacement o.start o.length

/-- The overlay that an expression is, if it is one. -/
def ofExpr? : Expr → Option Overlay
  | .overlay source replacement start length => some ⟨source, replacement, start, length⟩
  | _ => none

/-- The number of operand positions, the optional length included. -/
def arity : Nat := 4

def dataType (o : Overlay) : DataType := o.source.dataType.orElse o.replacement.dataType

/-- The overlay splices bytes and not characters. -/
def isBinary (o : Overlay) : Bool := o.dataType.isBinary

/-! ## Building -/

/-- Report the operand unless its type is unknown or `accepts` takes it. -/
def require (operand : Nat) (expected : Requirement) (accepts : DataType → Bool) (e : Expr) :
    Except BuildError Unit :=
  if e.dataType.isUnknown || accepts e.dataType then .ok ()
  else .error (.typeConformance .overlay operand expected e.dataType)

/-- A string operand is of the family of `stringType`; beside a type that is no string type,
    a character string is asked for. -/
def requireString (operand : Nat) (stringType : DataType) (e : Expr) : Except BuildError Unit :=
  if stringType.isBinary then require operand (.ofFamily .binary) DataType.isBinary e
  else require operand (.ofFamily .textual) DataType.isTextual e

def requireNumeric (operand : Nat) (e : Expr) : Except BuildError Unit :=
  require operand .numericExpression DataType.isNumeric e

/-- The overlay of operands that may be absent. An absent source, replacement or start is a
    `NULL`; only the length may stay away. The string type is that of the source, or of the
    replacement while the source has none, or open text. -/
def ofOperands (source replacement start length : Option Expr) : Except BuildError Overlay := do
  let source := source.getD (.null .unknown)
  let replacement := replacement.getD (.null .unknown)
  let start := start.getD (.null .unknown)
  let stringType := (source.dataType.orElse replacement.dataType).orElse (.varchar none)
  requireString 0 stringType source
  requireString 1 stringType replacement
  requireNumeric 2 start
  if let some length := length then
    requireNumeric 3 length
  return {
    source := source.retyped stringType
    replacement := replacement.retyped stringType
    start := start.retyped .integer
    length := length.map (Expr.retyped .integer) }

/-- The overlay with the operand at a position put in the place of the old one, or taken
    away. -/
def setOperand (o : Overlay) (index : Nat) (value : Option Expr) : Except BuildError Overlay :=
  match index with
  | 0 => ofOperands value o.replacement o.start o.length
  | 1 => ofOperands o.source value o.start o.length
  | 2 => ofOperands o.source o.replacement value o.length
  | 3 => ofOperands o.source o.replacement o.start value
  | _ => .error (.operandIndex .overlay index arity)

end Overlay

end SqlExpr
