-- SUMMARY: When the rewrite of an equality of rows is false, unknown or true, fields that are NULL included.
import SqlExpr.Proofs.Expr.Obtainable
import SqlExpr.Proofs.Row.Orders

/-!
# Equality of rows

The rewrite of an equality of rows is a conjunction, in which one pair of different values settles
the result wherever it stands, and a `NULL` leaves it open otherwise (`RowOrder.sameValues`). Its
negation keeps what is open. `RowCompare.equality_of_values` says so of any meaning of `=` that
compares values, and of evaluation.
-/

namespace SqlExpr

/-! ## Values -/

section

variable {α : Type} [DecidableEq α]

/-- The equality of two values, `none` for `NULL`. -/
def Truth.same : (a b : Option α) → Truth
  | some a, some b => some (a = b)
  | _, _ => none

/-- Rows of values, `none` for `NULL`, are not equal if some position has two different values.
    Otherwise their equality is unknown if some position has a `NULL`. -/
def RowOrder.sameValues (left right : List (Option α)) : Truth :=
  if ∃ p ∈ left.zip right, p.1 ≠ none ∧ p.2 ≠ none ∧ p.1 ≠ p.2 then some false
  else if ∃ p ∈ left.zip right, p.1 = none ∨ p.2 = none then none
  else some true

private theorem Truth.same_eq_false_iff {a b : Option α} :
    same a b = some false ↔ a ≠ none ∧ b ≠ none ∧ a ≠ b := by
  cases a <;> cases b <;> simp [same]

private theorem Truth.same_eq_none_iff {a b : Option α} :
    same a b = none ↔ a = none ∨ b = none := by
  cases a <;> cases b <;> simp [same]

/-- Rows are equal if their values are at all positions. -/
private theorem RowOrder.sameValues_eq_all (left right : List (Option α)) :
    sameValues left right = Truth.all (left.zipWith Truth.same right) := by
  have hmem (t : Truth) : t ∈ left.zipWith Truth.same right ↔
      ∃ p ∈ left.zip right, Truth.same p.1 p.2 = t := by
    rw [← List.map_uncurry_zip_eq_zipWith, List.mem_map]
    rfl
  rw [Truth.all_eq, sameValues]
  simp only [hmem, Truth.same_eq_false_iff, Truth.same_eq_none_iff]

end

/-! ## Data -/

namespace Datum

/-- The value that a datum is; `NULL` is none. -/
def known : Datum → Option Datum
  | .null => none
  | d => some d

/-- The two can be compared: one of them is `NULL`, or both are of one kind. -/
def Comparable (a b : Datum) : Prop := (a.order? b).isSome = true

instance (a b : Datum) : Decidable (a.Comparable b) := inferInstanceAs (Decidable (_ = true))

theorem order?_eq {a b : Datum} (h : a.Comparable b) :
    ∃ o, a.order? b = some o ∧ o.map (Comparator.accepts .eq) = Truth.same a.known b.known := by
  obtain ⟨o, ho⟩ := Option.isSome_iff_exists.1 h
  refine ⟨o, ho, ?_⟩
  have hsame {β : Type} [Ord β] [Std.LawfulEqOrd β] [DecidableEq β] (x y : β) :
      (Ord.compare x y).isEq = decide (x = y) := by
    rw [Bool.eq_iff_iff, decide_eq_true_iff, Ordering.isEq_iff_eq_eq, Std.compare_eq_iff_eq]
  cases a <;> cases b <;> cases ho <;> simp [known, Truth.same, Comparator.accepts, hsame]

end Datum

theorem RowOrder.orders?_eq {ls rs : List Datum} (hlength : ls.length = rs.length)
    (h : ∀ p ∈ ls.zip rs, p.1.Comparable p.2) :
    ∃ orders, orders? ls rs = some orders ∧ orders.map (Option.map (Comparator.accepts .eq)) =
      (ls.map Datum.known).zipWith Truth.same (rs.map Datum.known) := by
  induction ls generalizing rs with
  | nil =>
    obtain rfl := List.eq_nil_of_length_eq_zero hlength.symm
    exact ⟨[], rfl, rfl⟩
  | cons a ls ih =>
    cases rs with
    | nil => cases hlength
    | cons b rs =>
      obtain ⟨hab, hrest⟩ := List.forall_mem_cons.1 h
      obtain ⟨o, ho, hsame⟩ := Datum.order?_eq hab
      obtain ⟨orders, horders, hsames⟩ := ih (Nat.succ.inj hlength) hrest
      refine ⟨o :: orders, by simp [orders?, ho, horders], ?_⟩
      simp only [List.map_cons, List.zipWith_cons_cons, hsame, hsames]

/-! ## The rewrite of equalities -/

namespace RowCompare

/-- The meaning of `=` on the fields at every position is the equality of their values. -/
def ComparesValues {α : Type} [DecidableEq α] (holds : Comparator → Expr → Expr → Option Truth)
    (value : Expr → Option α) (left right : List Expr) : Prop :=
  ∀ p ∈ left.zip right, holds .eq p.1 p.2 = some (Truth.same (value p.1) (value p.2))

instance {α : Type} [DecidableEq α] (holds : Comparator → Expr → Expr → Option Truth)
    (value : Expr → Option α) (left right : List Expr) :
    Decidable (ComparesValues holds value left right) :=
  inferInstanceAs (Decidable (∀ p ∈ left.zip right, _ = _))

theorem ComparesValues.zipWith_eq {α : Type} [DecidableEq α]
    {holds : Comparator → Expr → Expr → Option Truth} {value : Expr → Option α}
    {left right : List Expr} (h : ComparesValues holds value left right) :
    left.zipWith (holds .eq) right =
      ((left.map value).zipWith Truth.same (right.map value)).map some := by
  rw [List.zipWith_map, List.map_zipWith, ← List.map_uncurry_zip_eq_zipWith,
    ← List.map_uncurry_zip_eq_zipWith]
  exact List.map_congr_left h

/-- The conjunction of the equalities exists for rows of one degree that have fields, and so does
    its negation. They are false, unknown or true as the values of the fields say, under any meaning
    of `=` that compares values; and they evaluate so where the data of the fields can be compared.
    They are what replaces `=` and `<>` between rows in whatever can be obtained. -/
theorem equality_of_values :
    (∀ left right : List Expr, left ≠ [] → left.length = right.length →
      ∃ same differ, equality left right false = some same ∧
        equality left right true = some differ ∧
        (∀ {α : Type} [DecidableEq α] (value : Expr → Option α)
          (holds : Comparator → Expr → Expr → Option Truth),
          ComparesValues holds value left right →
          same.truth holds = some (RowOrder.sameValues (left.map value) (right.map value)) ∧
          differ.truth holds =
            some (RowOrder.sameValues (left.map value) (right.map value)).not) ∧
        (∀ (env : Column → Datum) (ls rs : List Datum), Expr.evalList env left = some ls →
          Expr.evalList env right = some rs → (∀ p ∈ ls.zip rs, p.1.Comparable p.2) →
          same.eval env =
            some (.ofTruth (RowOrder.sameValues (ls.map Datum.known) (rs.map Datum.known))) ∧
          differ.eval env =
            some (.ofTruth (RowOrder.sameValues (ls.map Datum.known) (rs.map Datum.known)).not))) ∧
    ∀ c : RowCompare, c.toExpr.Obtainable → c.op.isEquality = true →
      ∃ e, equality c.left.fields c.right.fields (c.op = .ne) = some e ∧
        c.rewrite .emulated = some e := by
  constructor
  · intro left right hne hlength
    obtain ⟨same, hsame⟩ := exists_equality hne hlength false
    obtain ⟨differ, hdiffer⟩ := exists_equality hne hlength true
    refine ⟨same, differ, hsame, hdiffer, ?_, ?_⟩
    · intro α _ value holds h
      rw [RowOrder.sameValues_eq_all]
      exact ⟨truth_of_equality h.zipWith_eq hsame, truth_of_equality h.zipWith_eq hdiffer⟩
    · intro env ls rs hls hrs hcomparable
      have hdegree : ls.length = rs.length := by
        rw [Expr.length_evalList hls, Expr.length_evalList hrs, hlength]
      obtain ⟨orders, horders, htruths⟩ := RowOrder.orders?_eq hdegree hcomparable
      have hfields := (fieldOrders_holdsIn hls hrs horders).zipWith_eq .eq
      rw [htruths] at hfields
      rw [RowOrder.sameValues_eq_all]
      exact ⟨Expr.eval_of_truth (truth_of_equality hfields hsame),
        Expr.eval_of_truth (truth_of_equality hfields hdiffer)⟩
  · intro c hc hop
    obtain ⟨hne, hlength⟩ := Expr.Obtainable.rowCompare_fields hc
    obtain ⟨e, he⟩ := exists_equality hne hlength (c.op = .ne)
    exact ⟨e, he, (rewrite_of_isEquality hop).trans he⟩

/-- A `NULL`, then two different values: `(NULL, 1) = (7, 2)` is false and its negation true, and
    nothing is left open. -/
theorem equality_of_values_behind_null :
    let left : List Expr := [.null .bigint, .bind (.int 1)]
    let right : List Expr := [.bind (.int 7), .bind (.int 2)]
    let c : RowCompare := ⟨.ne, ⟨left⟩, ⟨right⟩⟩
    let env : Column → Datum := fun _ => .null
    RowCompare.new .ne ⟨left⟩ ⟨right⟩ = .ok c ∧ ∃ same differ,
      equality left right false = some same ∧ equality left right true = some differ ∧
        same.truth (Expr.holdsIn env) = some (some false) ∧
        differ.truth (Expr.holdsIn env) = some (some true) ∧
        same.eval env = some (.bool false) ∧ differ.eval env = some (.bool true) ∧
        c.rewrite .emulated = some differ := by
  intro left right c env
  have hne : left ≠ [] := List.cons_ne_nil _ _
  have hnew : RowCompare.new .ne ⟨left⟩ ⟨right⟩ = .ok c := rfl
  have hc : c.toExpr.Obtainable := by
    have hrow {a b : Expr} (ha : a.Obtainable) (hb : b.Obtainable) :
        (Expr.row [a, b]).Obtainable := by
      refine @Expr.Obtainable.row [a, b] ⟨[a, b]⟩ ?_ rfl
      intro e he
      rcases List.mem_pair.1 he with rfl | rfl
      · exact ha
      · exact hb
    exact .rowCompare (hrow (.null .bigint) (.bind _)) (hrow (.bind _) (.bind _)) hnew
  have hvalues : ComparesValues (Expr.holdsIn env)
      (fun e => (e.eval env).bind Datum.known) left right := by decide
  obtain ⟨same, differ, hsame, hdiffer, htruth, heval⟩ :=
    equality_of_values.1 left right hne rfl
  obtain ⟨e, he, hrewrite⟩ := equality_of_values.2 c hc rfl
  obtain ⟨hsameTruth, hdifferTruth⟩ := htruth _ _ hvalues
  obtain ⟨hsameEval, hdifferEval⟩ :=
    heval env [.null, .int 1] [.int 7, .int 2] rfl rfl (by decide)
  cases he.symm.trans hdiffer
  exact ⟨hnew, same, differ, hsame, hdiffer, hsameTruth, hdifferTruth, hsameEval, hdifferEval,
    hrewrite⟩

end RowCompare

end SqlExpr
