-- SUMMARY: The predicate in front of a rewritten ordering changes no result, whatever comparisons mean.
import SqlExpr.Proofs.Row.Fieldwise
import SqlExpr.Proofs.Semantics.Condition

/-!
# The leading predicate

The rewrite of an ordering puts the comparison of the first fields in front of the decision by the
first fields that differ. That comparison is redundant for any meaning of comparisons, orders or not,
in which the factored comparator is the strict one or equality
(`RowCompare.truth_ordering_eq_truth_lexicographic`). All it takes are the laws of three-valued
logic: the decision `s OR (e AND t)` is the conjunction of `s OR e`, which the predicate says, and
`s OR t`.
-/

namespace SqlExpr

namespace Truth

private theorem or_and_distrib (a b c : Truth) : or a (and b c) = and (or a b) (or a c) := by
  rcases a with _ | _ | _ <;> rcases b with _ | _ | _ <;> rcases c with _ | _ | _ <;> rfl

theorem and_and_self (a b : Truth) : and a (and a b) = and a b :=
  calc and a (and a b) = and (and a a) b := (connect_assoc .and a a b).symm
    _ = and a b := by rw [and_self]

/-- A lexicographic step implies the comparison that ends it or goes on. -/
private theorem or_and_or_and (s e t : Truth) : and (or s e) (or s (and e t)) = or s (and e t) := by
  rw [or_and_distrib, and_and_self]

end Truth

namespace RowCompare

variable {holds : Comparator → Expr → Expr → Option Truth} {op : Comparator} {l r : Expr}
  {left right : List Expr}

/-- On these two fields the factored comparator is the strict one or equality. -/
def Factors (holds : Comparator → Expr → Expr → Option Truth) (op : Comparator) (l r : Expr) :
    Prop :=
  ∃ s e, holds op.strict l r = some s ∧ holds .eq l r = some e ∧
    holds op.factored l r = some (Truth.or s e)

/-- The decision between rows of two or more fields. -/
theorem lexicographic_cons (hmore : left ≠ []) {tree : Expr}
    (h : lexicographic op (l :: left) (r :: right) = some tree) :
    ∃ rest, lexicographic op left right = some rest ∧
      tree = .or (.compare op.strict l r) (.and (.compare .eq l r) rest) := by
  cases left with
  | nil => exact absurd rfl hmore
  | cons l' left =>
    simp only [lexicographic, Option.bind_eq_bind, Option.bind_eq_some_iff, Option.pure_def,
      Option.some.injEq] at h
    obtain ⟨rest, hrest, rfl⟩ := h
    exact ⟨rest, hrest, rfl⟩

/-- The rewrite of an ordering of rows of two or more fields: the decision behind the leading
    predicate. -/
theorem ordering_of_lexicographic (hop : op.isOrdering = true) (hmore : left ≠ []) {tree : Expr}
    (h : lexicographic op (l :: left) (r :: right) = some tree) :
    ordering op (l :: left) (r :: right) = some (.and (.compare op.factored l r) tree) := by
  have hdegree : (l :: left).length = (r :: right).length :=
    ((lexicographic_isSome op _ _).1 (by simp [h])).2
  have hright : right ≠ [] := by
    rintro rfl
    exact hmore (List.eq_nil_of_length_eq_zero (Nat.succ.inj hdegree))
  obtain ⟨l', left, rfl⟩ := List.exists_cons_of_ne_nil hmore
  obtain ⟨r', right, rfl⟩ := List.exists_cons_of_ne_nil hright
  simp only [ordering, hop, h, if_true]
  rfl

/-- What is written for an ordering of scalars on a dialect that lacks orderings of rows. -/
theorem rewrite_rowCompare_singleton {d : Dialect} (hd : d.support .rowOrdering = .emulated)
    (hop : op.isOrdering = true) (l r : Expr) :
    (Expr.rowCompare op [l] [r]).rewrite d = some (.compare op l r) := by
  rw [rewrite_rowCompare_of_isOrdering hd hop, ordering, if_pos hop]
  rfl

/-- What is written for an ordering of rows of two or more fields on such a dialect. -/
theorem exists_rewrite_rowCompare {d : Dialect} (hd : d.support .rowOrdering = .emulated)
    (hop : op.isOrdering = true) (hmore : left ≠ []) (l r : Expr)
    (hlength : left.length = right.length) :
    ∃ tree, lexicographic op (l :: left) (r :: right) = some tree ∧
      (Expr.rowCompare op (l :: left) (r :: right)).rewrite d =
        some (.and (.compare op.factored l r) tree) := by
  have hsome : (lexicographic op (l :: left) (r :: right)).isSome = true :=
    (lexicographic_isSome op _ _).2 ⟨List.cons_ne_nil l left, congrArg (· + 1) hlength⟩
  obtain ⟨tree, htree⟩ := Option.isSome_iff_exists.1 hsome
  refine ⟨tree, htree, ?_⟩
  rw [rewrite_rowCompare_of_isOrdering hd hop, ordering_of_lexicographic hop hmore htree]

/-- The leading predicate does not change the truth of the decision behind it. -/
theorem truth_leading (hmore : left ≠ []) {tree : Expr}
    (h : lexicographic op (l :: left) (r :: right) = some tree) (hfactors : Factors holds op l r)
    {t : Truth} (ht : tree.truth holds = some t) :
    (Expr.and (.compare op.factored l r) tree).truth holds = some t := by
  obtain ⟨s, e, hstrict, heq, hfactored⟩ := hfactors
  obtain ⟨rest, -, rfl⟩ := lexicographic_cons hmore h
  simp only [Expr.or, Expr.and, Expr.truth, hstrict, heq, Option.bind_eq_bind, Option.bind_some,
    Option.bind_eq_some_iff, Option.pure_def, Option.some.injEq] at ht
  obtain ⟨_, ⟨u, hu, rfl⟩, rfl⟩ := ht
  simp only [Expr.or, Expr.and, Expr.truth, hstrict, heq, hfactored, hu, Option.bind_eq_bind,
    Option.bind_some, Option.pure_def]
  exact congrArg some (Truth.or_and_or_and s e u)

/-- A condition on fields has a truth value where all comparisons have one. -/
private theorem Fieldwise.exists_truth {e : Expr} (h : Fieldwise left right e)
    (compares : Comparator → Expr → Expr → Truth) :
    ∃ t, e.truth (fun op l r => some (compares op l r)) = some t := by
  induction h with
  | compare op h => exact ⟨_, rfl⟩
  | logical op _ _ iha ihb =>
    obtain ⟨a, ha⟩ := iha
    obtain ⟨b, hb⟩ := ihb
    exact ⟨Truth.connect op a b, by simp [Expr.truth, ha, hb]⟩
  | not _ ih =>
    obtain ⟨a, ha⟩ := ih
    exact ⟨a.not, by simp [Expr.truth, ha]⟩

/-- For rows of one degree with two or more fields, the rewrite of an ordering is the decision by the
    first fields that differ behind a leading predicate, and both have the same truth value, which
    may be unknown. Comparisons may mean anything, as long as on the first fields the factored
    comparator is the strict one or equality. -/
theorem truth_ordering_eq_truth_lexicographic (hop : op.isOrdering = true) (hmore : left ≠ [])
    (hlength : left.length = right.length) (compares : Comparator → Expr → Expr → Truth)
    (hfirst : compares op.factored l r = Truth.or (compares op.strict l r) (compares .eq l r)) :
    ∃ tree t, lexicographic op (l :: left) (r :: right) = some tree ∧
      ordering op (l :: left) (r :: right) = some (.and (.compare op.factored l r) tree) ∧
      tree.truth (fun op l r => some (compares op l r)) = some t ∧
      (Expr.and (.compare op.factored l r) tree).truth (fun op l r => some (compares op l r)) =
        some t := by
  have hsome : (lexicographic op (l :: left) (r :: right)).isSome = true :=
    (lexicographic_isSome op _ _).2 ⟨List.cons_ne_nil l left, by simp [hlength]⟩
  obtain ⟨tree, htree⟩ := Option.isSome_iff_exists.1 hsome
  obtain ⟨t, ht⟩ := (fieldwise_lexicographic htree).exists_truth compares
  have hfactors : Factors (fun op l r => some (compares op l r)) op l r :=
    ⟨_, _, rfl, rfl, congrArg some hfirst⟩
  exact ⟨tree, t, htree, ordering_of_lexicographic hop hmore htree, ht,
    truth_leading hmore htree hfactors ht⟩

/-- Integers ordered by divisibility, which leaves most of them incomparable. Anything else is
    unknown. -/
def divisibility (op : Comparator) : Expr → Expr → Truth
  | .constant ⟨.int a, _, _⟩, .constant ⟨.int b, _, _⟩ =>
    match op with
    | .eq => some (a = b)
    | .ne => some (a ≠ b)
    | .gt => some (b ∣ a ∧ a ≠ b)
    | .ge => some (b ∣ a)
    | .lt => some (a ∣ b ∧ a ≠ b)
    | .le => some (a ∣ b)
  | _, _ => none

/-- A tie, then a `NULL`, then fields that are incomparable: `(2, NULL, 4) <= (2, 6, 6)` is unknown,
    with the leading predicate and without. -/
theorem truth_ordering_eq_truth_lexicographic_incomparable :
    let two : Expr := .bind (.int 2)
    let left : List Expr := [.null .integer, .bind (.int 4)]
    let right : List Expr := [.bind (.int 6), .bind (.int 6)]
    Comparator.isOrdering .le = true ∧ left ≠ [] ∧ left.length = right.length ∧
      divisibility .le two two = Truth.or (divisibility .lt two two) (divisibility .eq two two) ∧
      ∃ tree, lexicographic .le (two :: left) (two :: right) = some tree ∧
        ordering .le (two :: left) (two :: right) = some (.and (.compare .le two two) tree) ∧
        tree.truth (fun op l r => some (divisibility op l r)) = some none ∧
        (Expr.and (.compare .le two two) tree).truth (fun op l r => some (divisibility op l r)) =
          some none := by
  intro two left right
  have hop : Comparator.isOrdering .le = true := rfl
  have hmore : left ≠ [] := by simp [left]
  have hlength : left.length = right.length := rfl
  have hfirst : divisibility .le two two =
      Truth.or (divisibility .lt two two) (divisibility .eq two two) := by decide
  obtain ⟨tree, t, htree, hordering, ht, hleading⟩ :=
    truth_ordering_eq_truth_lexicographic hop hmore hlength divisibility hfirst
  have hunknown : t = none := by
    cases htree
    exact Option.some.inj (ht.symm.trans rfl)
  subst hunknown
  exact ⟨hop, hmore, hlength, hfirst, tree, htree, hordering, ht, hleading⟩

end RowCompare

end SqlExpr
