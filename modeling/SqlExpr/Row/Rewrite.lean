-- SUMMARY: Row comparisons written as comparisons of their fields.
import SqlExpr.Dialect.Support
import SqlExpr.Row.Basic

/-!
# Row comparisons by fields

Equality of rows is a conjunction of equalities. An order between rows is decided by
the first fields that differ:

```text
(a, b, c) > (x, y, z)
  becomes  a >= x AND (a > x OR (a = x AND (b > y OR (b = y AND c > z))))
```

The leading `a >= x` follows from the rest and changes no result.
-/

namespace SqlExpr.RowCompare

/-- The equalities between the fields at the same positions. -/
def fieldEqualities (left right : List Expr) : List Expr := left.zipWith (.compare .eq) right

/-- `l1 = r1 AND l2 = r2 AND ...`, under a `NOT` when `negated`. `none` if there are no fields to
    compare. -/
def equality (left right : List Expr) (negated : Bool) : Option Expr :=
  match fieldEqualities left right with
  | [] => none
  | first :: rest =>
    let conjunction := rest.foldl Expr.and first
    some (if negated then .not conjunction else conjunction)

/-- The decision by the first fields that differ. The last fields are compared with `op`, earlier
    ones with its strict form. `none` unless the rows have fields and are of one degree. -/
def lexicographic (op : Comparator) : (left right : List Expr) → Option Expr
  | [l], [r] => some (.compare op l r)
  | l :: left, r :: right => do
    let rest ← lexicographic op left right
    return .or (.compare op.strict l r) (.and (.compare .eq l r) rest)
  | _, _ => none

/-- The decision by the first fields that differ, behind a comparison of the first fields with the
    factored comparator when there are more. `none` for `=` and `<>`. -/
def ordering (op : Comparator) (left right : List Expr) : Option Expr :=
  if op.isOrdering then do
    let tree ← lexicographic op left right
    match left, right with
    | l :: _ :: _, r :: _ :: _ => return .and (.compare op.factored l r) tree
    | _, _ => return tree
  else none

/-- What replaces the comparison at a level of support, if anything does. -/
def rewrite (c : RowCompare) : Support → Option Expr
  | .emulated =>
    match c.op with
    | .eq => equality c.left.fields c.right.fields false
    | .ne => equality c.left.fields c.right.fields true
    | op => ordering op c.left.fields c.right.fields
  | _ => none

@[simp] theorem rewrite_native (c : RowCompare) : c.rewrite .native = none := rfl

/-- The decision exists exactly for rows of one degree that have fields. -/
theorem lexicographic_isSome (op : Comparator) (left right : List Expr) :
    (lexicographic op left right).isSome = true ↔ left ≠ [] ∧ left.length = right.length := by
  fun_induction lexicographic op left right with
  | case1 => simp
  | case2 l left r right hne ih =>
    have h : left ≠ [] ∨ right ≠ [] := by grind
    cases hl : lexicographic op left right with
    | none => simp [hl] at ih ⊢; grind
    | some t => simp [hl] at ih ⊢; grind
  | case3 left right h1 h2 =>
    cases left with
    | nil => simp
    | cons l left =>
      cases right with
      | nil => simp
      | cons r right => exact (h2 l left r right rfl rfl).elim

end SqlExpr.RowCompare
