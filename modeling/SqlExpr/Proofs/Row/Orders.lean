-- SUMMARY: The truth of the field-by-field forms of a row comparison, from the orders of the fields.
import SqlExpr.Proofs.Row.Leading
import SqlExpr.Proofs.Semantics.Lists

/-!
# Row comparisons by the orders of fields

A row comparison written as comparisons of its fields is true, false or unknown as the
orders of the fields at the same positions say (`RowOrder.compare`). This needs nothing
of the meaning of comparisons but that at each position they follow one order, which may
be unknown.
-/

namespace SqlExpr

/-! ## Orders under comparators -/

namespace Comparator

theorem accepts_strict_eq {op : Comparator} (h : op.isOrdering = true) :
    op.strict.accepts .eq = false := by
  cases op with
  | eq | ne => cases h
  | _ => rfl

theorem accepts_strict_of_ne {op : Comparator} {o : Ordering} (h : o ≠ .eq) :
    op.strict.accepts o = op.accepts o := by
  cases o with
  | eq => exact absurd rfl h
  | _ => cases op <;> rfl

theorem accepts_eq_of_ne {o : Ordering} (h : o ≠ .eq) : accepts .eq o = false := by
  cases o with
  | eq => exact absurd rfl h
  | _ => rfl

end Comparator

namespace RowOrder

theorem ordering_cons_of_ne {op : Comparator} {o : Ordering} {orders : List (Option Ordering)}
    (h : o ≠ .eq) : ordering op (some o :: orders) = some (op.accepts o) := by
  rw [← Comparator.accepts_strict_of_ne h]
  cases o with
  | eq => exact absurd rfl h
  | _ => rfl

private theorem ordering_singleton (op : Comparator) (o : Option Ordering) :
    ordering op [o] = o.map op.accepts := by
  rcases o with _ | _ | _ | _
  · rfl
  · exact ordering_cons_of_ne (by simp)
  · rfl
  · exact ordering_cons_of_ne (by simp)

/-- Rows of degree one compare as their fields do. -/
theorem compare_singleton (op : Comparator) (o : Option Ordering) :
    RowOrder.compare op [o] = o.map op.accepts := by
  rcases o with _ | o
  · cases op <;> rfl
  · cases op <;> cases o <;> rfl

/-- One step of the lexicographic decision. -/
theorem ordering_cons {op : Comparator} (h : op.isOrdering = true) (o : Option Ordering)
    (orders : List (Option Ordering)) :
    ordering op (o :: orders) = Truth.or (o.map op.strict.accepts)
      (Truth.and (o.map (Comparator.accepts .eq)) (ordering op orders)) := by
  cases o with
  | none => exact (Truth.or_and_of_unknown _).symm
  | some o =>
    by_cases ho : o = .eq
    · subst ho
      simp only [Option.map_some, Comparator.accepts_strict_eq h]
      exact (Truth.or_and_of_tie _).symm
    · simp only [Option.map_some, Comparator.accepts_eq_of_ne ho, Truth.or_and_of_differ,
        Comparator.accepts_strict_of_ne ho]
      exact ordering_cons_of_ne ho

/-- Rows are equal if the fields at all positions are. -/
theorem equality_eq_all (orders : List (Option Ordering)) :
    equality orders = Truth.all (orders.map (Option.map (Comparator.accepts .eq))) := by
  have hdiffer : (some false ∈ orders.map (Option.map (Comparator.accepts .eq))) ↔
      orders.any (·.any (· != .eq)) = true := by
    simp only [List.mem_map, Option.map_eq_some_iff, List.any_eq_true, Option.any_eq_true]
    simp [Comparator.accepts]
  have hunknown : (none ∈ orders.map (Option.map (Comparator.accepts .eq))) ↔
      orders.any (·.isNone) = true := by
    simp
  rw [Truth.all_eq, equality]
  simp only [hdiffer, hunknown]

theorem equality_cons (o : Option Ordering) (orders : List (Option Ordering)) :
    equality (o :: orders) = Truth.and (o.map (Comparator.accepts .eq)) (equality orders) := by
  simp only [equality_eq_all, List.map_cons, Truth.all_cons]

end RowOrder

/-! ## The field-by-field forms -/

namespace RowCompare

/-- At every position of two rows of one degree, the comparisons of the fields follow the order
    that `orders` has there, or are unknown where it has none. -/
inductive FieldOrders (holds : Comparator → Expr → Expr → Option Truth) :
    List Expr → List Expr → List (Option Ordering) → Prop
  | nil : FieldOrders holds [] [] []
  | cons {l r : Expr} {o : Option Ordering} {left right : List Expr}
      {orders : List (Option Ordering)}
      (hfields : ∀ op, holds op l r = some (o.map (Comparator.accepts op)))
      (hrest : FieldOrders holds left right orders) :
      FieldOrders holds (l :: left) (r :: right) (o :: orders)

variable {holds : Comparator → Expr → Expr → Option Truth} {left right : List Expr}
  {orders : List (Option Ordering)} {op : Comparator}

/-- Comparisons of fields follow the orders of their data. -/
theorem fieldOrders_holdsIn {env : Column → Datum} {ls rs : List Datum}
    (hleft : Expr.evalList env left = some ls)
    (hright : Expr.evalList env right = some rs) (h : RowOrder.orders? ls rs = some orders) :
    FieldOrders (Expr.holdsIn env) left right orders := by
  induction left generalizing right ls rs orders with
  | nil =>
    cases hleft
    cases right with
    | nil =>
      cases hright
      cases h
      exact .nil
    | cons r right =>
      obtain ⟨b, bs, hb, hbs, rfl⟩ := Expr.evalList_cons.1 hright
      cases h
  | cons l left ih =>
    obtain ⟨a, as, ha, has, rfl⟩ := Expr.evalList_cons.1 hleft
    cases right with
    | nil =>
      cases hright
      cases h
    | cons r right =>
      obtain ⟨b, bs, hb, hbs, rfl⟩ := Expr.evalList_cons.1 hright
      simp only [RowOrder.orders?, Option.bind_eq_bind, Option.bind_eq_some_iff, Option.pure_def,
        Option.some.injEq] at h
      obtain ⟨o, ho, os, hos, rfl⟩ := h
      refine .cons ?_ (ih has hbs hos)
      intro op
      simp [Expr.holdsIn, ha, hb, ho]

theorem FieldOrders.length_eq (h : FieldOrders holds left right orders) :
    left.length = right.length := by
  induction h with
  | nil => rfl
  | cons _ _ ih => exact congrArg Nat.succ ih

/-- The decision by the first fields that differ. -/
theorem truth_lexicographic (h : FieldOrders holds left right orders) (hne : left ≠ [])
    (hop : op.isOrdering = true) :
    ∃ tree, lexicographic op left right = some tree ∧
      tree.truth holds = some (RowOrder.ordering op orders) := by
  induction h with
  | nil => exact absurd rfl hne
  | @cons l r o left right orders hfields hrest ih =>
    cases hrest with
    | nil => exact ⟨_, rfl, by rw [Expr.truth, hfields op, RowOrder.ordering_singleton]⟩
    | @cons l' r' o' left right orders hfields' hrest' =>
      obtain ⟨rest, hrest, htruth⟩ := ih (by simp)
      refine ⟨.or (.compare op.strict l r) (.and (.compare .eq l r) rest), ?_, ?_⟩
      · simp [lexicographic, hrest]
      · rw [RowOrder.ordering_cons hop]
        simp [Expr.or, Expr.and, Expr.truth, hfields, htruth, Truth.connect]

/-- Where fields follow an order, the factored comparator is the strict one or equality. -/
private theorem factors_of_order {l r : Expr} {o : Option Ordering} (hop : op.isOrdering = true)
    (h : ∀ op, holds op l r = some (o.map (Comparator.accepts op))) : Factors holds op l r := by
  refine ⟨_, _, h op.strict, h .eq, (h op.factored).trans (congrArg some ?_)⟩
  cases o with
  | none => rfl
  | some o =>
    simp only [Option.map_some, Truth.or_some, Comparator.accepts_factored hop]

/-- The same decision behind the comparison of the first fields. -/
theorem truth_ordering (h : FieldOrders holds left right orders) (hne : left ≠ [])
    (hop : op.isOrdering = true) :
    ∃ full, ordering op left right = some full ∧
      full.truth holds = some (RowOrder.ordering op orders) := by
  obtain ⟨tree, htree, htruth⟩ := truth_lexicographic h hne hop
  cases h with
  | nil => exact absurd rfl hne
  | cons hfields hrest =>
    cases hrest with
    | nil => exact ⟨tree, by simp [ordering, hop, htree], htruth⟩
    | @cons l' r' o' left right orders hfields' hrest' =>
      have hmore : l' :: left ≠ [] := List.cons_ne_nil l' left
      exact ⟨_, ordering_of_lexicographic hop hmore htree,
        truth_leading hmore htree (factors_of_order hop hfields) htruth⟩

private theorem truth_fieldEqualities (holds : Comparator → Expr → Expr → Option Truth)
    (left right : List Expr) :
    (fieldEqualities left right).map (Expr.truth holds) = left.zipWith (holds .eq) right := by
  rw [fieldEqualities, List.map_zipWith]
  rfl

/-- The conjunction of the equalities, negated or not, is that of their truth values. -/
theorem truth_of_equality {ts : List Truth} (h : left.zipWith (holds .eq) right = ts.map some)
    {negated : Bool} {e : Expr} (he : equality left right negated = some e) :
    e.truth holds = some (if negated then (Truth.all ts).not else Truth.all ts) := by
  rw [← truth_fieldEqualities] at h
  unfold equality at he
  split at he
  · cases he
  · rename_i first rest hfields
    rw [hfields] at h
    obtain ⟨t, ts, rfl, ht, hts⟩ := List.map_eq_cons_iff.1 h.symm
    have hconjunction := Expr.truth_foldl_and hts.symm ht.symm
    cases he
    cases negated with
    | false => exact hconjunction
    | true =>
      show (do return (← Expr.truth holds _).not) = _
      rw [hconjunction]
      rfl

theorem FieldOrders.zipWith_eq (h : FieldOrders holds left right orders) (op : Comparator) :
    left.zipWith (holds op) right = (orders.map (Option.map op.accepts)).map some := by
  induction h with
  | nil => rfl
  | cons hfields _ ih => simp only [List.zipWith_cons_cons, List.map_cons, hfields, ih]

/-- The conjunction of the equalities, negated or not. -/
private theorem truth_equality (h : FieldOrders holds left right orders) (hne : left ≠ [])
    (negated : Bool) :
    ∃ e, equality left right negated = some e ∧
      e.truth holds = some (if negated then (RowOrder.equality orders).not
        else RowOrder.equality orders) := by
  obtain ⟨e, he⟩ := exists_equality hne h.length_eq negated
  refine ⟨e, he, ?_⟩
  rw [RowOrder.equality_eq_all]
  exact truth_of_equality (h.zipWith_eq .eq) he

/-- The rewrite of a row comparison is true, false or unknown as the orders of its fields say. -/
theorem truth_rewrite {c : RowCompare} (h : FieldOrders holds c.left.fields c.right.fields orders)
    (hne : c.left.fields ≠ []) :
    ∃ e, c.rewrite .emulated = some e ∧
      e.truth holds = some (RowOrder.compare c.op orders) := by
  obtain ⟨op, left, right⟩ := c
  cases op with
  | eq => exact truth_equality h hne false
  | ne => exact truth_equality h hne true
  | _ => exact truth_ordering h hne rfl

end RowCompare

end SqlExpr
