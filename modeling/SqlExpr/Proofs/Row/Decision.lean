-- SUMMARY: Rows over a linear order with NULL: the first fields that are not equal decide a rewritten ordering.
import Mathlib
import SqlExpr.Proofs.Row.Orders

/-!
# The deciding fields

Where fields have values in a linear order or are `NULL`, the rewrite of an ordering
comparison of rows looks for the first position at which the fields are not both known
and equal. `RowOrder.decision` says what that position decides, and
`RowCompare.truth_ordering_eq_decision` that both forms of the rewrite compute it.
-/

namespace SqlExpr

variable {α : Type*} [LinearOrder α]

/-! ## Comparing values -/

/-- The comparator on two elements of a linear order. -/
def Comparator.test (op : Comparator) (a b : α) : Bool :=
  match op with
  | .eq => a = b
  | .ne => a ≠ b
  | .gt => b < a
  | .ge => b ≤ a
  | .lt => a < b
  | .le => a ≤ b

theorem Comparator.test_eq_accepts (op : Comparator) (a b : α) :
    op.test a b = op.accepts (compare a b) := by
  rcases lt_trichotomy a b with h | h | h
  · rw [compare_lt_iff_lt.2 h]
    cases op <;> simp [test, accepts, h, h.ne, h.le, h.not_gt, h.not_ge]
  · subst h
    rw [compare_eq_iff_eq.2 rfl]
    cases op <;> simp [test, accepts]
  · rw [compare_gt_iff_gt.2 h]
    cases op <;> simp [test, accepts, h, h.ne', h.le, h.not_gt, h.not_ge]

/-- The meaning of comparisons where expressions have values in a linear order, `none` for `NULL`.
    The comparison with a `NULL` is unknown. -/
def Expr.holdsFor (value : Expr → Option α) (op : Comparator) (l r : Expr) : Option Truth :=
  match value l, value r with
  | some a, some b => some (some (op.test a b))
  | _, _ => some none

/-! ## The decision -/

namespace RowOrder

/-- The order of two values, unknown beside `NULL`. -/
def order : (a b : Option α) → Option Ordering
  | some a, some b => some (Ord.compare a b)
  | _, _ => none

/-- The first position at which the fields are not both known and equal decides. It is unknown if
    one of the two is `NULL`, and otherwise whether the left one is strictly greater, for `>` and
    `>=`, or strictly less. Without such a position the rows are equal, which `>=` and `<=`
    accept. -/
def decision (op : Comparator) (left right : List (Option α)) : Truth :=
  match (left.zip right).find? fun (a, b) => ¬(a.isSome ∧ a = b) with
  | none => some (op = .ge ∨ op = .le)
  | some (some a, some b) => some (if op = .gt ∨ op = .ge then b < a else a < b)
  | some _ => none

private theorem accepts_compare_of_ne {op : Comparator} (hop : op.isOrdering = true) {a b : α}
    (h : a ≠ b) : op.accepts (Ord.compare a b) =
      if op = .gt ∨ op = .ge then decide (b < a) else decide (a < b) := by
  rw [← Comparator.test_eq_accepts]
  cases op with
  | eq | ne => cases hop
  | gt | lt => simp [Comparator.test]
  | ge => simp [Comparator.test, h.symm.le_iff_lt]
  | le => simp [Comparator.test, h.le_iff_lt]

theorem ordering_nil {op : Comparator} (hop : op.isOrdering = true) :
    ordering op [] = some (decide (op = .ge ∨ op = .le)) := by
  cases op with
  | eq | ne => cases hop
  | _ => rfl

private theorem ordering_eq_decision {op : Comparator} (hop : op.isOrdering = true)
    (left right : List (Option α)) :
    ordering op (left.zipWith order right) = decision op left right := by
  induction left generalizing right with
  | nil => exact ordering_nil hop
  | cons a left ih =>
    cases right with
    | nil => exact ordering_nil hop
    | cons b right =>
      rcases a with _ | a
      · rfl
      · rcases b with _ | b
        · rfl
        · by_cases hab : a = b
          · subst hab
            have htie : order (some a) (some a) = some .eq :=
              congrArg some (compare_eq_iff_eq.2 rfl)
            rw [List.zipWith_cons_cons, htie, ordering, ih right]
            simp [decision]
          · have hne : Ord.compare a b ≠ .eq := fun h => hab (compare_eq_iff_eq.1 h)
            rw [List.zipWith_cons_cons, order, ordering_cons_of_ne hne,
              accepts_compare_of_ne hop hab]
            simp [decision, hab]

end RowOrder

/-! ## The rewrite of orderings -/

namespace RowCompare

theorem fieldOrders_order (value : Expr → Option α) {left right : List Expr}
    (h : left.length = right.length) :
    FieldOrders (Expr.holdsFor value) left right
      ((left.map value).zipWith RowOrder.order (right.map value)) := by
  induction left generalizing right with
  | nil =>
    cases right with
    | nil => exact .nil
    | cons r right => cases h
  | cons l left ih =>
    cases right with
    | nil => cases h
    | cons r right =>
      refine .cons ?_ (ih (Nat.succ.inj h))
      intro op
      unfold Expr.holdsFor RowOrder.order
      cases value l with
      | none => rfl
      | some a =>
        cases value r with
        | none => rfl
        | some b => simp [Comparator.test_eq_accepts]

/-- Both forms of an ordering comparison exist for rows of one degree that have fields, and both
    evaluate to what the first fields decide that are not both known and equal. -/
theorem truth_ordering_eq_decision {op : Comparator} (hop : op.isOrdering = true)
    {left right : List Expr} (hne : left ≠ []) (hlength : left.length = right.length)
    (value : Expr → Option α) :
    ∃ full tree, ordering op left right = some full ∧ lexicographic op left right = some tree ∧
      full.truth (Expr.holdsFor value) =
        some (RowOrder.decision op (left.map value) (right.map value)) ∧
      tree.truth (Expr.holdsFor value) =
        some (RowOrder.decision op (left.map value) (right.map value)) := by
  have horders := fieldOrders_order value hlength
  obtain ⟨full, hfull, hfullTruth⟩ := truth_ordering horders hne hop
  obtain ⟨tree, htree, htreeTruth⟩ := truth_lexicographic horders hne hop
  rw [RowOrder.ordering_eq_decision hop] at hfullTruth htreeTruth
  exact ⟨full, tree, hfull, htree, hfullTruth, htreeTruth⟩

/-- The integer that an expression is, if it is one. -/
def integer? : Expr → Option Int
  | .constant ⟨.int n, _, _⟩ => some n
  | _ => none

/-- A tie, then a `NULL`, then fields that no longer count: `(1, NULL, 3) >= (1, 2, 0)`. -/
theorem truth_ordering_of_tie_then_null :
    let left : List Expr := [.bind (.int 1), .null .integer, .bind (.int 3)]
    let right : List Expr := [.bind (.int 1), .bind (.int 2), .bind (.int 0)]
    Comparator.isOrdering .ge = true ∧ left ≠ [] ∧ left.length = right.length ∧
      ∃ full tree, ordering .ge left right = some full ∧
        lexicographic .ge left right = some tree ∧
        full.truth (Expr.holdsFor integer?) = some none ∧
        tree.truth (Expr.holdsFor integer?) = some none := by
  intro left right
  have hop : Comparator.isOrdering .ge = true := rfl
  have hne : left ≠ [] := by simp [left]
  have hlength : left.length = right.length := rfl
  exact ⟨hop, hne, hlength, truth_ordering_eq_decision hop hne hlength integer?⟩

end RowCompare

end SqlExpr
