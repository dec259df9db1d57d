-- SUMMARY: Structural equality of expressions, with floating point constants compared as numbers.
import SqlExpr.Expr.Basic

/-!
# Equality of expressions

Two expressions are the same if they have the same shape and their parts are the
same. Constants compare as `Value.same`, so an expression with a NaN in it differs
from itself.
-/

namespace SqlExpr

/-- Equality of constants: the value as `Value.same`, type and inline mark exactly. -/
def Constant.same (c c' : Constant) : Bool :=
  c.value.same c'.value && c.dataType == c'.dataType && c.inline == c'.inline

namespace Expr

mutual
/-- Structural equality. -/
def same : Expr → Expr → Bool
  | .column c, .column c' => c == c'
  | .constant c, .constant c' => c.same c'
  | .call f args, .call f' args' => f == f' && sameList args args'
  | .arith op l r, .arith op' l' r' => op == op' && l.same l' && r.same r'
  | .compare op l r, .compare op' l' r' => op == op' && l.same l' && r.same r'
  | .logical op l r, .logical op' l' r' => op == op' && l.same l' && r.same r'
  | .not e, .not e' => e.same e'
  | .row fields, .row fields' => sameList fields fields'
  | .overlay s r p n, .overlay s' r' p' n' =>
    s.same s' && r.same r' && p.same p' && sameOption n n'
  | .rowCompare op l r, .rowCompare op' l' r' => op == op' && sameList l l' && sameList r r'
  | _, _ => false

def sameList : List Expr → List Expr → Bool
  | [], [] => true
  | e :: es, e' :: es' => e.same e' && sameList es es'
  | _, _ => false

def sameOption : Option Expr → Option Expr → Bool
  | none, none => true
  | some e, some e' => e.same e'
  | _, _ => false
end

end Expr

end SqlExpr
