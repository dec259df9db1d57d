-- SUMMARY: Expressions that differ in data types alone, and that their rewrites do so too.
import Mathlib.Data.List.Forall2
import SqlExpr.Proofs.Expr.Congruence
import SqlExpr.Proofs.Expr.Operand

/-!
# Equal but for types

Two expressions are `EqualButTypes` if they are the same tree with other types at its columns and
constants. Of what an overlay concludes from types the relation keeps one bit, whether it splices
bytes, and with this bit rewrites keep the relation (`Expr.EqualButTypes.rewrite`).
-/

namespace SqlExpr

/-- The two differ in the types of columns and constants alone, and overlays at the same place
    splice the same units. -/
inductive Expr.EqualButTypes : Expr → Expr → Prop
  | column (c : Column) (t : DataType) :
    EqualButTypes (.column c) (.column { c with dataType := t })
  | constant (c : Constant) (t : DataType) :
    EqualButTypes (.constant c) (.constant { c with dataType := t })
  | call (f : Builtin) {args args' : List Expr} (hargs : List.Forall₂ EqualButTypes args args') :
    EqualButTypes (.call f args) (.call f args')
  | arith (op : ArithOp) {l r l' r' : Expr} (hl : EqualButTypes l l') (hr : EqualButTypes r r') :
    EqualButTypes (.arith op l r) (.arith op l' r')
  | compare (op : Comparator) {l r l' r' : Expr} (hl : EqualButTypes l l')
      (hr : EqualButTypes r r') : EqualButTypes (.compare op l r) (.compare op l' r')
  | logical (op : Connective) {l r l' r' : Expr} (hl : EqualButTypes l l')
      (hr : EqualButTypes r r') : EqualButTypes (.logical op l r) (.logical op l' r')
  | not {e e' : Expr} (he : EqualButTypes e e') : EqualButTypes (.not e) (.not e')
  | row {fields fields' : List Expr} (hfields : List.Forall₂ EqualButTypes fields fields') :
    EqualButTypes (.row fields) (.row fields')
  | overlay {s r p s' r' p' : Expr} {n n' : Option Expr} (hs : EqualButTypes s s')
      (hr : EqualButTypes r r') (hp : EqualButTypes p p') (hn : Option.Rel EqualButTypes n n')
      (hbinary : Overlay.isBinary ⟨s, r, p, n⟩ = Overlay.isBinary ⟨s', r', p', n'⟩) :
    EqualButTypes (.overlay s r p n) (.overlay s' r' p' n')
  | rowCompare (op : Comparator) {left right left' right' : List Expr}
      (hleft : List.Forall₂ EqualButTypes left left')
      (hright : List.Forall₂ EqualButTypes right right') :
    EqualButTypes (.rowCompare op left right) (.rowCompare op left' right')

namespace Expr.EqualButTypes

theorem refl (e : Expr) : EqualButTypes e e := by
  induction e with
  | column c => exact .column c c.dataType
  | constant c => exact .constant c c.dataType
  | call f args ih => exact .call f (List.forall₂_same.2 ih)
  | arith op l r ihl ihr => exact .arith op ihl ihr
  | compare op l r ihl ihr => exact .compare op ihl ihr
  | logical op l r ihl ihr => exact .logical op ihl ihr
  | not e ih => exact .not ih
  | row fields ih => exact .row (List.forall₂_same.2 ih)
  | overlay s r p n ihs ihr ihp ihn =>
    refine .overlay ihs ihr ihp ?_ rfl
    cases n with
    | none => exact .none
    | some n => exact .some (ihn n rfl)
  | rowCompare op left right ihl ihr =>
    exact .rowCompare op (List.forall₂_same.2 ihl) (List.forall₂_same.2 ihr)

theorem isLogical {e e' : Expr} (h : EqualButTypes e e') : e.isLogical = e'.isLogical := by
  cases h <;> rfl

/-- A chain joins as many conditions, each equal but for types. -/
theorem chain {e e' : Expr} (op : Connective) (h : EqualButTypes e e') :
    List.Forall₂ EqualButTypes (e.chain op) (e'.chain op) := by
  fun_induction Expr.chain op e generalizing e' with
  | case1 l r ihl ihr =>
    cases h with
    | logical _ hl hr =>
      simp only [Expr.chain, if_true]
      exact List.rel_append (ihl hl) (ihr hr)
  | case2 op' l r hne =>
    cases h with
    | logical _ hl hr =>
      simp only [Expr.chain, if_neg hne]
      exact .cons (.logical op' hl hr) .nil
  | case3 e he =>
    have hchain : e'.chain op = [e'] := by
      cases h with
      | logical op' hl hr => exact (he op' _ _ rfl).elim
      | _ => rfl
    rw [hchain]
    exact .cons h .nil

theorem congruence : Congruence EqualButTypes where
  refl := .refl
  call f := .call f
  arith op := .arith op
  compare op := .compare op
  logical op := .logical op
  not := .not

/-- Rewrites are equal but for types, and one is missing only if both are. -/
theorem rewrite {e e' : Expr} (h : EqualButTypes e e') (d : Dialect) :
    Option.Rel EqualButTypes (e.rewrite d) (e'.rewrite d) := by
  cases h with
  | overlay hs hr hp hn hbinary =>
    exact Overlay.rel_rewrite congruence ⟨hs, hr, hp, hn, hbinary⟩ _
  | rowCompare op hleft hright => exact RowCompare.rel_rewrite congruence hleft hright op _
  | _ => exact .none

end Expr.EqualButTypes

end SqlExpr
