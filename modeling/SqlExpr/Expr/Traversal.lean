-- SUMMARY: Visiting every node of a tree, parents before their operands, and the two orders of its nodes.
import SqlExpr.Expr.Operand

/-!
# Traversal

`Expr.fold` visits a node, then its operands from left to right, and carries a value
along. `Expr.preorder` lists the nodes in that order, read off the shape of the tree.
`Expr.postorder` lists them with the operands before their node.
-/

namespace SqlExpr.Expr

/-- Operands are smaller than their node. -/
theorem size_lt_of_mem_slots {e o : Expr} (h : some o ∈ e.slots) : o.size < e.size := by
  cases e with
  | column | constant => simp [slots] at h
  | call f args =>
    simp only [slots, List.mem_map, Option.some.injEq, exists_eq_right] at h
    have := size_le_listSize h
    simp only [size]; omega
  | row fields =>
    simp only [slots, List.mem_map, Option.some.injEq, exists_eq_right] at h
    have := size_le_listSize h
    simp only [size]; omega
  | overlay source replacement start length =>
    simp only [slots, List.mem_cons, Option.some.injEq, List.not_mem_nil, or_false] at h
    rcases h with rfl | rfl | rfl | rfl <;> simp only [size, optionSize] <;> omega
  | rowCompare op left right =>
    simp only [slots, List.mem_cons, Option.some.injEq, List.not_mem_nil, or_false] at h
    rcases h with rfl | rfl <;> simp only [size] <;> omega
  | _ =>
    simp only [slots, List.mem_cons, Option.some.injEq, List.not_mem_nil, or_false] at h
    simp only [size]
    grind

theorem mem_operands {e o : Expr} : o ∈ e.operands ↔ some o ∈ e.slots := by
  simp [operands]

theorem size_lt_of_mem_operands {e o : Expr} (h : o ∈ e.operands) : o.size < e.size :=
  size_lt_of_mem_slots (mem_operands.1 h)

/-- To prove a statement for every expression, prove it for each from the statement for its
    operands. -/
@[elab_as_elim]
theorem operand_induction {motive : Expr → Prop}
    (node : ∀ e, (∀ o ∈ e.operands, motive o) → motive e) (e : Expr) : motive e := by
  induction h : e.size using Nat.strongRecOn generalizing e with
  | _ n ih =>
  subst h
  exact node e fun o ho => ih _ (size_lt_of_mem_operands ho) o rfl

/-- Visit every node, a node before its operands and operands from left to right. -/
def fold (f : α → Expr → α) (init : α) (e : Expr) : α :=
  e.operands.attach.foldl (fun acc o => fold f acc o.1) (f init e)
termination_by e.size
decreasing_by exact size_lt_of_mem_operands o.2

/-- How a fold goes through a node. -/
theorem fold_eq (f : α → Expr → α) (init : α) (e : Expr) :
    e.fold f init = e.operands.foldl (fun acc o => o.fold f acc) (f init e) := by
  rw [fold]
  conv => rhs; rw [← List.attach_map_subtype_val e.operands, List.foldl_map]

mutual
/-- The nodes of the tree, a node before what it holds. -/
def preorder : Expr → List Expr
  | .column c => [.column c]
  | .constant c => [.constant c]
  | .call f args => .call f args :: preorderList args
  | .arith op l r => .arith op l r :: (l.preorder ++ r.preorder)
  | .compare op l r => .compare op l r :: (l.preorder ++ r.preorder)
  | .logical op l r => .logical op l r :: (l.preorder ++ r.preorder)
  | .not e => .not e :: e.preorder
  | .row fields => .row fields :: preorderList fields
  | .overlay s r p n =>
    .overlay s r p n :: (s.preorder ++ r.preorder ++ p.preorder ++ preorderOption n)
  | .rowCompare op l r =>
    .rowCompare op l r :: (.row l :: preorderList l ++ (.row r :: preorderList r))

def preorderList : List Expr → List Expr
  | [] => []
  | e :: es => e.preorder ++ preorderList es

def preorderOption : Option Expr → List Expr
  | none => []
  | some e => e.preorder
end

mutual
/-- The nodes of the tree, a node behind what it holds. -/
def postorder : Expr → List Expr
  | .column c => [.column c]
  | .constant c => [.constant c]
  | .call f args => postorderList args ++ [.call f args]
  | .arith op l r => l.postorder ++ r.postorder ++ [.arith op l r]
  | .compare op l r => l.postorder ++ r.postorder ++ [.compare op l r]
  | .logical op l r => l.postorder ++ r.postorder ++ [.logical op l r]
  | .not e => e.postorder ++ [.not e]
  | .row fields => postorderList fields ++ [.row fields]
  | .overlay s r p n =>
    s.postorder ++ r.postorder ++ p.postorder ++ postorderOption n ++ [.overlay s r p n]
  | .rowCompare op l r =>
    postorderList l ++ [.row l] ++ (postorderList r ++ [.row r]) ++ [.rowCompare op l r]

def postorderList : List Expr → List Expr
  | [] => []
  | e :: es => e.postorder ++ postorderList es

def postorderOption : Option Expr → List Expr
  | none => []
  | some e => e.postorder
end

end SqlExpr.Expr
