-- SUMMARY: Properties that hold of every node of a tree.
import SqlExpr.Proofs.Expr.Preorder

/-!
# Everywhere in a tree

`Expr.Everywhere P e` says that every node of `e` has the property `P`, the rows of a
row comparison included. There is one equivalence for each kind of node, so that the
definition need not be opened.
-/

namespace SqlExpr.Expr

attribute [local simp] preorder preorderList preorderOption

/-- Every node of the tree has the property. -/
def Everywhere (P : Expr → Prop) (e : Expr) : Prop := ∀ x ∈ e.preorder, P x

theorem mem_preorderList {x : Expr} {es : List Expr} :
    x ∈ preorderList es ↔ ∃ e ∈ es, x ∈ e.preorder := by
  induction es with
  | nil => simp
  | cons e es ih => simp [ih]

private theorem mem_preorderOption {x : Expr} {o : Option Expr} :
    x ∈ preorderOption o ↔ ∃ e ∈ o, x ∈ e.preorder := by
  cases o <;> simp

namespace Everywhere

variable {P : Expr → Prop}

theorem self {e : Expr} (h : e.Everywhere P) : P e :=
  h e (by cases e <;> simp)

theorem iff_operands {e : Expr} : e.Everywhere P ↔ P e ∧ ∀ o ∈ e.operands, o.Everywhere P := by
  unfold Everywhere
  rw [preorder_eq]
  simp only [List.forall_mem_cons, List.mem_flatMap]
  grind

@[simp] theorem column {c : Column} : (Expr.column c).Everywhere P ↔ P (.column c) := by
  simp [Everywhere]

@[simp] theorem constant {c : Constant} : (Expr.constant c).Everywhere P ↔ P (.constant c) := by
  simp [Everywhere]

@[simp] theorem call {f : Builtin} {args : List Expr} :
    (Expr.call f args).Everywhere P ↔ P (.call f args) ∧ ∀ a ∈ args, a.Everywhere P := by
  simp only [Everywhere, preorder, List.forall_mem_cons, mem_preorderList]
  grind

@[simp] theorem arith {op : ArithOp} {l r : Expr} :
    (Expr.arith op l r).Everywhere P ↔
      P (.arith op l r) ∧ l.Everywhere P ∧ r.Everywhere P := by
  simp [Everywhere, or_imp, forall_and]

@[simp] theorem compare {op : Comparator} {l r : Expr} :
    (Expr.compare op l r).Everywhere P ↔
      P (.compare op l r) ∧ l.Everywhere P ∧ r.Everywhere P := by
  simp [Everywhere, or_imp, forall_and]

@[simp] theorem logical {op : Connective} {l r : Expr} :
    (Expr.logical op l r).Everywhere P ↔
      P (.logical op l r) ∧ l.Everywhere P ∧ r.Everywhere P := by
  simp [Everywhere, or_imp, forall_and]

@[simp] theorem not {e : Expr} : (Expr.not e).Everywhere P ↔ P (.not e) ∧ e.Everywhere P := by
  simp [Everywhere]

@[simp] theorem row {fields : List Expr} :
    (Expr.row fields).Everywhere P ↔ P (.row fields) ∧ ∀ a ∈ fields, a.Everywhere P := by
  simp only [Everywhere, preorder, List.forall_mem_cons, mem_preorderList]
  grind

@[simp] theorem overlay {source replacement start : Expr} {length : Option Expr} :
    (Expr.overlay source replacement start length).Everywhere P ↔
      P (.overlay source replacement start length) ∧ source.Everywhere P ∧
        replacement.Everywhere P ∧ start.Everywhere P ∧ ∀ n ∈ length, n.Everywhere P := by
  simp only [Everywhere, preorder, List.forall_mem_cons, List.mem_append, mem_preorderOption]
  grind

@[simp] theorem rowCompare {op : Comparator} {left right : List Expr} :
    (Expr.rowCompare op left right).Everywhere P ↔
      P (.rowCompare op left right) ∧ (Expr.row left).Everywhere P ∧
        (Expr.row right).Everywhere P := by
  simp only [Everywhere, preorder, List.mem_append, List.mem_cons]
  grind

/-- A property of the links of a chain. -/
theorem of_mem_chain {op : Connective} {e x : Expr} (h : e.Everywhere P) (hx : x ∈ e.chain op) :
    x.Everywhere P := by
  fun_induction chain op e with
  | case1 l r ihl ihr =>
    rw [logical] at h
    rcases List.mem_append.1 hx with hx | hx
    · exact ihl h.2.1 hx
    · exact ihr h.2.2 hx
  | case2 op' l r hne => rwa [List.mem_singleton.1 hx]
  | case3 e he => rwa [List.mem_singleton.1 hx]

end Everywhere

end SqlExpr.Expr
