-- SUMMARY: The links of a chain are what lies below its connective, each once and from left to right.
import Mathlib.Data.List.Basic
import SqlExpr.Expr.Basic

/-!
# Links of a chain

`Expr.chain` flattens nodes of one connective. Which links it should give, and in which order, is
told by the paths that lead to them: a path goes left or right at each node of the connective, as far
as there is one. The links are those at the ends of these paths, in the lexicographic order of the
paths (`Expr.exists_chain_paths`).
-/

namespace SqlExpr.Expr

/-- What a path leads to through nodes of the connective. The path goes to the right where it is
    `true`. -/
def linkAt (op : Connective) : Expr → (path : List Bool) → Option Expr
  | e, [] => some e
  | .logical op' l r, right :: path =>
    if op' = op then linkAt op (if right then r else l) path else none
  | _, _ :: _ => none

/-- The path leads to an expression that is no node of the connective. -/
def LeadsOut (op : Connective) (e : Expr) (path : List Bool) : Prop :=
  ∃ x, e.linkAt op path = some x ∧ ∀ l r, x ≠ .logical op l r

variable {op : Connective} {e : Expr}

/-- To prove a statement for every expression, prove it for those that are no node of the
    connective, and for the nodes of the connective from the statement for both sides. -/
theorem chain_induction (op : Connective) {motive : Expr → Prop}
    (link : ∀ e, (∀ l r, e ≠ .logical op l r) → motive e)
    (node : ∀ l r, motive l → motive r → motive (.logical op l r)) (e : Expr) : motive e := by
  fun_induction chain op e with
  | case1 l r ihl ihr => exact node l r ihl ihr
  | case2 op' l r hne =>
    refine link _ fun l' r' h => hne ?_
    cases h
    rfl
  | case3 e he => exact link e fun l r => he op l r

theorem chain_of_ne (h : ∀ l r, e ≠ .logical op l r) : e.chain op = [e] := by
  cases e with
  | logical op' l r => exact if_neg fun hop : op' = op => h l r (hop ▸ rfl)
  | _ => rfl

theorem chain_logical (op : Connective) (l r : Expr) :
    (Expr.logical op l r).chain op = l.chain op ++ r.chain op :=
  if_pos rfl

theorem chain_ne_nil (op : Connective) (e : Expr) : e.chain op ≠ [] := by
  induction e using chain_induction op with
  | link e hne =>
    rw [chain_of_ne hne]
    exact List.cons_ne_nil _ _
  | node l r ihl _ =>
    rw [chain_logical]
    exact List.append_ne_nil_of_left_ne_nil ihl _

/-- From what is no node of the connective only the empty path leads anywhere. -/
private theorem leadsOut_iff_of_ne (h : ∀ l r, e ≠ .logical op l r) {path : List Bool} :
    LeadsOut op e path ↔ path = [] := by
  constructor
  · rintro ⟨x, hx, -⟩
    cases path with
    | nil => rfl
    | cons right path =>
      cases e with
      | logical op' l r =>
        have hop : op' ≠ op := fun hop => h l r (hop ▸ rfl)
        rw [linkAt, if_neg hop] at hx
        cases hx
      | _ => cases hx
  · rintro rfl
    exact ⟨e, by rw [linkAt], h⟩

/-- Through a node of the connective a path leads on to the left or to the right. -/
private theorem leadsOut_logical {l r : Expr} {path : List Bool} :
    LeadsOut op (.logical op l r) path ↔
      (∃ p, LeadsOut op l p ∧ false :: p = path) ∨ ∃ p, LeadsOut op r p ∧ true :: p = path := by
  cases path with
  | nil => simp [LeadsOut, linkAt]
  | cons right path => cases right <;> simp [LeadsOut, linkAt]

/-- The links of a chain are what the paths lead to, in the order of the paths, and each path out of
    the chain counts once. -/
theorem exists_chain_paths (op : Connective) (e : Expr) :
    ∃ paths : List (List Bool), paths.Pairwise (· < ·) ∧
      (∀ path, path ∈ paths ↔ LeadsOut op e path) ∧
      paths.map (e.linkAt op) = (e.chain op).map some := by
  induction e using chain_induction op with
  | link e h =>
    refine ⟨[[]], List.pairwise_singleton _ _, fun path => ?_, ?_⟩
    · rw [leadsOut_iff_of_ne h, List.mem_singleton]
    · simp [chain_of_ne h, linkAt]
  | node l r ihl ihr =>
    obtain ⟨ps, hps, hleft, hl⟩ := ihl
    obtain ⟨qs, hqs, hright, hr⟩ := ihr
    refine ⟨ps.map (false :: ·) ++ qs.map (true :: ·), ?_, fun path => ?_, ?_⟩
    · have hside (p q : List Bool) : false :: p < true :: q :=
        List.cons_lt_cons_iff.2 (.inl (by decide))
      refine List.pairwise_append.2 ⟨?_, ?_, ?_⟩
      · simpa [List.pairwise_map, List.cons_lt_cons_iff] using hps
      · simpa [List.pairwise_map, List.cons_lt_cons_iff] using hqs
      · simp [hside]
    · simp only [List.mem_append, List.mem_map, leadsOut_logical, hleft, hright]
    · have hbelow (right : Bool) (path : List Bool) :
          (Expr.logical op l r).linkAt op (right :: path) =
            (if right then r else l).linkAt op path := by
        rw [linkAt, if_pos rfl]
      rw [chain_logical, List.map_append, List.map_append, ← hl, ← hr]
      simp [Function.comp_def, hbelow]

end SqlExpr.Expr
