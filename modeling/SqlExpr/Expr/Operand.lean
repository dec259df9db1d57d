-- SUMMARY: Uniform access to the operands of every node: how many, which, and the node with one of them changed.
import SqlExpr.Expr.Induction
import SqlExpr.Overlay.Basic
import SqlExpr.Row.Basic

/-!
# Operands

Passes over trees need not know the kinds of nodes: `slots` lists the operand
positions of any node, and `withOperand` rebuilds the node with one operand changed.
Rebuilding goes through the construct's own builder, so what the builder checks
holds of the new node, and the kind never changes.
-/

namespace SqlExpr.Expr

/-! ## Reading operands -/

/-- The operand positions in order. Only the length of an overlay may be empty. -/
def slots : Expr → List (Option Expr)
  | .column _ | .constant _ => []
  | .call _ args => args.map some
  | .arith _ l r | .compare _ l r | .logical _ l r => [some l, some r]
  | .not e => [some e]
  | .row fields => fields.map some
  | .overlay source replacement start length => [some source, some replacement, some start, length]
  | .rowCompare _ left right => [some (.row left), some (.row right)]

/-- The number of operand positions. -/
def arity (e : Expr) : Nat := e.slots.length

/-- The operand at a position; `none` beyond the arity and for an absent length. -/
def operand? (e : Expr) (index : Nat) : Option Expr := e.slots[index]?.join

/-- The operands that are present, in order. -/
def operands (e : Expr) : List Expr := e.slots.filterMap id

/-! ## Changing an operand -/

/-- The operand that has to be there. -/
def required (construct : Kind) (index : Nat) : Option Expr → Except BuildError Expr
  | some e => .ok e
  | none => .error (.missingOperand construct index)

/-- The node with the operand at a position changed. Only an overlay takes `none`: its length
    goes away, another operand becomes `NULL`. -/
def withOperand (e : Expr) (index : Nat) (value : Option Expr) : Except BuildError Expr :=
  if e.arity ≤ index then .error (.operandIndex e.kind index e.arity)
  else match e with
    | .overlay source replacement start length =>
      Overlay.toExpr <$> (Overlay.mk source replacement start length).setOperand index value
    | e => do
      let value ← required e.kind index value
      match e with
      | .call f args => return .call f (args.set index value)
      | .arith op l r => return if index = 0 then .arith op value r else .arith op l value
      | .compare op l r => return if index = 0 then .compare op value r else .compare op l value
      | .logical op l r => return if index = 0 then .logical op value r else .logical op l value
      | .not _ => return .not value
      | .row fields => return .row (fields.set index value)
      | .rowCompare op left right =>
        RowCompare.toExpr <$> (RowCompare.mk op ⟨left⟩ ⟨right⟩).setOperand index value
      | e => return e

end SqlExpr.Expr
