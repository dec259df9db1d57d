-- SUMMARY: The preorder and the postorder of a tree: what they are for each node, and the folds over them.
import Mathlib.Data.List.Perm.Basic
import SqlExpr.Expr.Traversal

/-!
# Preorder and postorder

`Expr.preorder` is read off the shape of the tree, `Expr.fold` goes by the operands of a
node, whatever its kind. Both visit the same nodes in the same order (`Expr.fold_preorder`), and
`Expr.postorder` has the same nodes in another order (`Expr.postorder_perm_preorder`).
-/

namespace SqlExpr.Expr

private theorem preorderList_eq_flatMap (es : List Expr) :
    preorderList es = es.flatMap preorder := by
  induction es with
  | nil => rfl
  | cons e es ih => rw [preorderList, ih, List.flatMap_cons]

/-- A node comes before its operands, and these from left to right. -/
theorem preorder_eq (e : Expr) : e.preorder = e :: e.operands.flatMap preorder := by
  cases e with
  | overlay source replacement start length =>
    cases length with
    | none => simp [preorder, preorderOption, operands, slots]
    | some n => simp [preorder, preorderOption, operands, slots]
  | _ => simp [preorder, preorderList_eq_flatMap, operands, slots]

/-- A fold over the tree is a fold over its preorder. -/
theorem fold_preorder (f : α → Expr → α) (init : α) (e : Expr) :
    e.fold f init = e.preorder.foldl f init := by
  induction e using operand_induction generalizing init with
  | node e ih =>
    rw [fold_eq, preorder_eq, List.foldl_cons, List.foldl_flatMap]
    exact List.foldl_ext _ _ _ fun acc o ho => ih o ho acc

/-! ## Postorder -/

private theorem postorderList_eq_flatMap (es : List Expr) :
    postorderList es = es.flatMap postorder := by
  induction es with
  | nil => rfl
  | cons e es ih => rw [postorderList, ih, List.flatMap_cons]

/-- A node comes behind its operands, and these from left to right. -/
theorem postorder_eq (e : Expr) : e.postorder = e.operands.flatMap postorder ++ [e] := by
  cases e with
  | overlay source replacement start length =>
    cases length with
    | none => simp [postorder, postorderOption, operands, slots]
    | some n => simp [postorder, postorderOption, operands, slots]
  | _ => simp [postorder, postorderList_eq_flatMap, operands, slots]

theorem postorder_perm_preorder (e : Expr) : e.postorder.Perm e.preorder := by
  induction e using operand_induction with
  | node e ih =>
    rw [postorder_eq, preorder_eq]
    exact (List.perm_append_singleton e _).trans (.cons e (List.Perm.flatMap_left _ ih))

/-! ## Chains -/

/-- A list that is collected from both sides of a connective is collected from the links of a
    chain. -/
theorem flatMap_chain {op : Connective} {f : Expr → List α}
    (hf : ∀ l r, f (.logical op l r) = f l ++ f r) (e : Expr) : (e.chain op).flatMap f = f e := by
  fun_induction chain op e with
  | case1 l r ihl ihr => rw [List.flatMap_append, ihl, ihr, hf]
  | case2 op' l r hne => exact List.flatMap_singleton f _
  | case3 e he => exact List.flatMap_singleton f _

end SqlExpr.Expr
