-- SUMMARY: How the six rewritten comparisons of two rows hang together, fields that are NULL included.
import SqlExpr.Proofs.Expr.Operand
import SqlExpr.Proofs.Row.Decision

/-!
# Coherence of row comparisons

Equality of rows is rewritten into a conjunction, each order into a decision by the first fields
that differ. On the orders of the fields (`RowOrder.compare`) these follow the laws of comparators
on single values: a comparator and its negation, a comparator with the sides exchanged, an order
that includes equality. All three hold in three-valued logic, and where every field has a value the
rows are compared as by one order (`RowOrder.compare_map_some`). So the rewrites of the six
comparisons of two rows are coherent (`RowCompare.exists_coherent_truths`).
-/

namespace SqlExpr

/-! ## Comparators -/

namespace Comparator

/-- The comparator that accepts what this one does not. -/
def negated : Comparator → Comparator
  | .eq => .ne
  | .ne => .eq
  | .gt => .le
  | .ge => .lt
  | .lt => .ge
  | .le => .gt

/-- The comparator that says of exchanged sides what this one says of the sides. -/
def flipped : Comparator → Comparator
  | .gt => .lt
  | .ge => .le
  | .lt => .gt
  | .le => .ge
  | op => op

theorem accepts_negated (op : Comparator) (o : Ordering) :
    op.negated.accepts o = !op.accepts o := by
  cases op <;> cases o <;> rfl

theorem accepts_flipped (op : Comparator) (o : Ordering) :
    op.flipped.accepts o.swap = op.accepts o := by
  cases op <;> cases o <;> rfl

private theorem accepts_factored_of_ne {op : Comparator} (hop : op.isOrdering = true) {o : Ordering}
    (h : o ≠ .eq) : op.factored.accepts o = op.strict.accepts o := by
  rw [accepts_factored hop, accepts_eq_of_ne h, Bool.or_false]

end Comparator

/-! ## Comparisons by the orders of fields -/

namespace RowOrder

variable {op : Comparator} {orders : List (Option Ordering)}

private theorem ordering_negated (op : Comparator) (orders : List (Option Ordering)) :
    ordering op.negated orders = (ordering op orders).not := by
  induction orders with
  | nil => exact congrArg some (op.accepts_negated .eq)
  | cons o orders ih =>
    rcases o with _ | o
    · rfl
    by_cases ho : o = .eq
    · subst ho
      exact ih
    · rw [ordering_cons_of_ne ho, ordering_cons_of_ne ho, op.accepts_negated]
      rfl

/-- A comparator and its negation never agree, and are unknown together. -/
private theorem compare_negated (op : Comparator) (orders : List (Option Ordering)) :
    compare op.negated orders = (compare op orders).not := by
  cases op with
  | eq => rfl
  | ne => exact (Truth.not_not _).symm
  | gt | ge | lt | le => exact ordering_negated _ orders

private theorem ordering_flipped (op : Comparator) (orders : List (Option Ordering)) :
    ordering op.flipped (orders.map (Option.map Ordering.swap)) = ordering op orders := by
  induction orders with
  | nil => exact congrArg some (op.accepts_flipped .eq)
  | cons o orders ih =>
    rcases o with _ | o
    · rfl
    by_cases ho : o = .eq
    · subst ho
      exact ih
    · have hswap : o.swap ≠ .eq := fun h => ho (Ordering.swap_eq_eq.1 h)
      rw [List.map_cons, Option.map_some, ordering_cons_of_ne hswap, ordering_cons_of_ne ho,
        op.accepts_flipped]

private theorem equality_swap (orders : List (Option Ordering)) :
    equality (orders.map (Option.map Ordering.swap)) = equality orders := by
  have hfields : Comparator.accepts .eq ∘ Ordering.swap = Comparator.accepts .eq :=
    funext (Comparator.accepts_flipped .eq)
  rw [equality_eq_all, equality_eq_all, List.map_map, Option.map_comp_map, hfields]

/-- A comparator of two rows says what its flipped form says of the rows exchanged. -/
private theorem compare_flipped (op : Comparator) (orders : List (Option Ordering)) :
    compare op.flipped (orders.map (Option.map Ordering.swap)) = compare op orders := by
  cases op with
  | eq => exact equality_swap orders
  | ne => exact congrArg Truth.not (equality_swap orders)
  | gt | ge | lt | le => exact ordering_flipped _ orders

/-- The decision with equality added is the strict one or the conjunction of the equalities. -/
private theorem ordering_factored (hop : op.isOrdering = true) (orders : List (Option Ordering)) :
    ordering op.factored orders = Truth.or (ordering op.strict orders) (equality orders) := by
  induction orders with
  | nil =>
    rw [ordering, ordering, Comparator.accepts_factored hop, Comparator.accepts_strict_eq hop]
    rfl
  | cons o orders ih =>
    rcases o with _ | o
    · rw [equality_cons]
      exact (Truth.or_and_of_unknown _).symm
    by_cases ho : o = .eq
    · subst ho
      rw [equality_cons]
      exact ih.trans (congrArg _ (Truth.true_and _).symm)
    · rw [ordering_cons_of_ne ho, ordering_cons_of_ne ho, equality_cons, Option.map_some,
        Comparator.accepts_eq_of_ne ho, Truth.or_and_of_differ,
        Comparator.accepts_factored_of_ne hop ho]

private theorem ordering_map_some (op : Comparator) (orders : List Ordering) :
    ordering op (orders.map some) = some (op.accepts (orders.foldr Ordering.then .eq)) := by
  induction orders with
  | nil => rfl
  | cons o orders ih =>
    by_cases ho : o = .eq
    · subst ho
      exact ih
    · have hfirst : o.then (orders.foldr Ordering.then .eq) = o := by
        cases o with
        | eq => exact absurd rfl ho
        | _ => rfl
      rw [List.map_cons, ordering_cons_of_ne ho, List.foldr_cons, hfirst]

private theorem equality_map_some (orders : List Ordering) :
    equality (orders.map some) =
      some (Comparator.accepts .eq (orders.foldr Ordering.then .eq)) := by
  induction orders with
  | nil => rfl
  | cons o orders ih =>
    rw [List.map_cons, equality_cons, ih, List.foldr_cons]
    cases o <;> cases orders.foldr Ordering.then .eq <;> rfl

/-- Where all fields have values, the rows are in one order, that of the first fields that differ,
    and every comparator says of them what it says of values in that order. -/
theorem compare_map_some (op : Comparator) (orders : List Ordering) :
    compare op (orders.map some) = some (op.accepts (orders.foldr Ordering.then .eq)) := by
  cases op with
  | eq => exact equality_map_some orders
  | ne =>
    rw [compare, equality_map_some]
    exact congrArg some (Comparator.accepts_negated .eq _).symm
  | gt | ge | lt | le => exact ordering_map_some _ orders

/-! ## Comparisons by the values of fields -/

variable {α : Type*} [LinearOrder α]

private theorem order_swap (a b : Option α) : (order a b).map Ordering.swap = order b a := by
  rcases a with _ | a <;> rcases b with _ | b
  · rfl
  · rfl
  · rfl
  · exact congrArg some Std.OrientedCmp.eq_swap.symm

/-- The comparison of two rows of values, `none` for `NULL`. -/
def compareValues (op : Comparator) (left right : List (Option α)) : Truth :=
  compare op (left.zipWith order right)

private theorem compareValues_flipped (op : Comparator) (left right : List (Option α)) :
    compareValues op.flipped right left = compareValues op left right := by
  have horders :
      right.zipWith order left = (left.zipWith order right).map (Option.map Ordering.swap) := by
    rw [List.map_zipWith, List.zipWith_comm]
    simp only [order_swap]
  rw [compareValues, horders, compare_flipped, compareValues]

/-- What six comparators say of two rows, and what they say of the rows exchanged. -/
structure Coherent (t swapped : Comparator → Truth) : Prop where
  ge_eq_not_lt : t .ge = (t .lt).not
  le_eq_not_gt : t .le = (t .gt).not
  ne_eq_not_eq : t .ne = (t .eq).not
  gt_eq_swapped_lt : t .gt = swapped .lt
  ge_eq_swapped_le : t .ge = swapped .le
  le_eq_lt_or_eq : t .le = Truth.or (t .lt) (t .eq)
  ge_eq_gt_or_eq : t .ge = Truth.or (t .gt) (t .eq)

private theorem coherent_compareValues (left right : List (Option α)) :
    Coherent (compareValues · left right) (compareValues · right left) where
  ge_eq_not_lt := compare_negated .lt _
  le_eq_not_gt := compare_negated .gt _
  ne_eq_not_eq := compare_negated .eq _
  gt_eq_swapped_lt := (compareValues_flipped .gt left right).symm
  ge_eq_swapped_le := (compareValues_flipped .ge left right).symm
  le_eq_lt_or_eq := @ordering_factored .lt rfl _
  ge_eq_gt_or_eq := @ordering_factored .gt rfl _

/-- Of two rows without `NULL`, the first is less than, equal to or greater than the second. -/
private theorem trichotomy_compareValues {left right : List (Option α)}
    (hleft : ∀ a ∈ left, a.isSome) (hright : ∀ b ∈ right, b.isSome) :
    [compareValues .lt left right, compareValues .eq left right,
      compareValues .gt left right].count (some true) = 1 := by
  have hknown : ∀ o ∈ left.zipWith order right, some (o.getD .eq) = o := by
    rw [← List.map_uncurry_zip_eq_zipWith, List.forall_mem_map]
    intro p hp
    obtain ⟨ha, hb⟩ := List.of_mem_zip hp
    obtain ⟨a, ha⟩ := Option.isSome_iff_exists.1 (hleft _ ha)
    obtain ⟨b, hb⟩ := Option.isSome_iff_exists.1 (hright _ hb)
    change some ((order p.1 p.2).getD .eq) = order p.1 p.2
    rw [ha, hb]
    rfl
  have horders : left.zipWith order right =
      ((left.zipWith order right).map (·.getD .eq)).map some := by
    rw [List.map_map]
    exact ((List.map_congr_left hknown).trans (List.map_id _)).symm
  simp only [compareValues]
  rw [horders]
  simp only [compare_map_some]
  cases ((left.zipWith order right).map (·.getD .eq)).foldr Ordering.then .eq <;> rfl

end RowOrder

/-! ## The six rewrites -/

namespace RowCompare

/-- A comparison holds fields of the values that it was made of, if these do not depend on the types
    of constants. -/
private theorem values_of_new {α : Type*} {value : Expr → α}
    (hvalue : ∀ e e' : Expr, e.SameButType e' → value e' = value e) {op : Comparator} {l r : Row}
    {c : RowCompare} (h : new op l r = .ok c) :
    c.left.fields.map value = l.fields.map value ∧
      c.right.fields.map value = r.fields.map value := by
  have hfields {es es' : List Expr} (h : List.Forall₂ Expr.SameButType es es') :
      es'.map value = es.map value := by
    induction h with
    | nil => rfl
    | cons h _ ih => rw [List.map_cons, List.map_cons, hvalue _ _ h, ih]
  obtain ⟨hleft, hright⟩ := sameButType_of_new h
  exact ⟨hfields hleft, hfields hright⟩

variable {α : Type*} [LinearOrder α]

/-- The truth of what replaces a comparison on dialects that lack it, where the fields have the
    values `value`. `none` if nothing replaces it. -/
def emulatedTruth? (value : Expr → Option α) (c : RowCompare) : Option Truth := do
  (← c.rewrite .emulated).truth (Expr.holdsFor value)

theorem emulatedTruth?_eq (value : Expr → Option α) {c : RowCompare} (hne : c.left.fields ≠ [])
    (hdegree : c.left.degree = c.right.degree) :
    emulatedTruth? value c = some
      (RowOrder.compareValues c.op (c.left.fields.map value) (c.right.fields.map value)) := by
  obtain ⟨e, he, htruth⟩ := truth_rewrite (fieldOrders_order value hdegree) hne
  rw [emulatedTruth?, he]
  exact htruth

/-- A comparison that is built of two rows compares their values. -/
private theorem emulatedTruth?_of_new {value : Expr → Option α}
    (hvalue : ∀ e e' : Expr, e.SameButType e' → value e' = value e) {op : Comparator} {l r : Row}
    {c : RowCompare} (hne : l.fields ≠ []) (h : new op l r = .ok c) :
    emulatedTruth? value c =
      some (RowOrder.compareValues op (l.fields.map value) (r.fields.map value)) := by
  obtain ⟨hleft, hright⟩ := values_of_new hvalue h
  have hdegree : c.left.degree = c.right.degree := degree_eq_of_new (new_again h)
  rw [emulatedTruth?_eq value (fields_left_ne_nil_of_new h hne) hdegree, op_of_new h, hleft, hright]

/-- The rewrites of the six comparisons of two rows of one degree, and of the rows exchanged, have
    truth values that are coherent, `NULL` among the fields or not. Where no field is `NULL`, just
    one of `<`, `=` and `>` is true. The comparisons that are built of the rows, in which constants
    may have other types, have the same truth values, if the values of constants do not depend on
    their types. -/
theorem exists_coherent_truths {l r : Row} (hne : l.fields ≠ []) (hdegree : l.degree = r.degree)
    (value : Expr → Option α) :
    ∃ t swapped : Comparator → Truth,
      (∀ op, emulatedTruth? value ⟨op, l, r⟩ = some (t op) ∧
        emulatedTruth? value ⟨op, r, l⟩ = some (swapped op)) ∧
      RowOrder.Coherent t swapped ∧
      ((∀ e ∈ l.fields ++ r.fields, (value e).isSome) →
        [t .lt, t .eq, t .gt].count (some true) = 1) ∧
      ((∀ e e' : Expr, e.SameButType e' → value e' = value e) → ∀ op c,
        (new op l r = .ok c → emulatedTruth? value c = some (t op)) ∧
        (new op r l = .ok c → emulatedTruth? value c = some (swapped op))) := by
  have hne' : r.fields ≠ [] :=
    List.length_pos_iff.1 (Nat.lt_of_lt_of_eq (List.length_pos_iff.2 hne) hdegree)
  refine ⟨(RowOrder.compareValues · (l.fields.map value) (r.fields.map value)),
    (RowOrder.compareValues · (r.fields.map value) (l.fields.map value)), ?_, ?_, ?_, ?_⟩
  · intro op
    exact ⟨emulatedTruth?_eq value hne hdegree, emulatedTruth?_eq value hne' hdegree.symm⟩
  · exact RowOrder.coherent_compareValues _ _
  · intro hvalues
    obtain ⟨hleft, hright⟩ := List.forall_mem_append.1 hvalues
    exact RowOrder.trichotomy_compareValues (List.forall_mem_map.2 hleft)
      (List.forall_mem_map.2 hright)
  · intro hvalue op c
    exact ⟨emulatedTruth?_of_new hvalue hne, emulatedTruth?_of_new hvalue hne'⟩

/-- A tie, then values that differ: `(1, 5)` and `(1, 7)`. The comparison that is built of the rows
    exchanged gives another type to a constant of the first row, and is true all the same. -/
theorem exists_coherent_truths_of_tie :
    let one : Expr := .constant ⟨.int 1, .smallint, false⟩
    let l : Row := ⟨[one, .bind (.int 5)]⟩
    let r : Row := ⟨[.bind (.int 1), .bind (.int 7)]⟩
    let c : RowCompare := ⟨.ge, r, ⟨[.bind (.int 1), .bind (.int 5)]⟩⟩
    l.fields ≠ [] ∧ l.degree = r.degree ∧ (∀ e ∈ l.fields ++ r.fields, (integer? e).isSome) ∧
      (∀ e e' : Expr, e.SameButType e' → integer? e' = integer? e) ∧ new .ge r l = .ok c ∧
      ∃ t swapped : Comparator → Truth, RowOrder.Coherent t swapped ∧
        [t .lt, t .eq, t .gt].count (some true) = 1 ∧
        emulatedTruth? integer? ⟨.le, l, r⟩ = some (t .le) ∧
        emulatedTruth? integer? c = some (swapped .ge) ∧ swapped .ge = some true := by
  intro one l r c
  have hne : l.fields ≠ [] := List.cons_ne_nil _ _
  have hvalues : ∀ e ∈ l.fields ++ r.fields, (integer? e).isSome := by
    simp [l, r, one, Expr.bind, Constant.bind, integer?]
  have htypes : ∀ e e' : Expr, e.SameButType e' → integer? e' = integer? e := by
    intro e e' h
    cases h with
    | refl => rfl
    | constant c t =>
      obtain ⟨v, u, inline⟩ := c
      cases v <;> rfl
  have hnew : new .ge r l = .ok c := rfl
  obtain ⟨t, swapped, hraw, hcoherent, hone, hbuilt⟩ :=
    exists_coherent_truths (l := l) (r := r) hne rfl integer?
  have hc : emulatedTruth? integer? c = some (swapped .ge) := (hbuilt htypes .ge c).2 hnew
  have htrue : emulatedTruth? integer? c = some (some true) := by decide
  exact ⟨hne, rfl, hvalues, htypes, hnew, t, swapped, hcoherent, hone hvalues, (hraw .le).1, hc,
    Option.some.inj (hc.symm.trans htrue)⟩

end RowCompare

end SqlExpr
