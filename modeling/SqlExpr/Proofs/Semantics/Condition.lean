-- SUMMARY: The truth of conditions under any meaning of their comparisons, and how it agrees with evaluation.
import SqlExpr.Expr.Induction
import SqlExpr.Semantics.Eval

/-!
# Truth of conditions

A condition is built from comparisons with `AND`, `OR` and `NOT`. `Expr.truth` gives its
truth value once the comparisons have a meaning, whatever that is; the fields that are
compared stay closed. Evaluation is the case in which the data of the fields are compared
(`Expr.eval_of_truth`).
-/

namespace SqlExpr

/-! ## Three-valued logic -/

namespace Truth

theorem connect_assoc (op : Connective) (a b c : Truth) :
    connect op (connect op a b) c = connect op a (connect op b c) := by
  cases op <;> rcases a with _ | _ | _ <;> rcases b with _ | _ | _ <;> rcases c with _ | _ | _ <;>
    rfl

/-- A known field order decides between the two sides of a lexicographic step: the strict
    comparison is unknown or false unless it settles the step. -/
theorem or_and_of_tie (t : Truth) : or (some false) (and (some true) t) = t := by
  rcases t with _ | _ | _ <;> rfl

theorem or_and_of_differ (b : Bool) (t : Truth) : or (some b) (and (some false) t) = some b := by
  cases b <;> rcases t with _ | _ | _ <;> rfl

theorem or_and_of_unknown (t : Truth) : or none (and none t) = none := by
  rcases t with _ | _ | _ <;> rfl

theorem or_some (a b : Bool) : or (some a) (some b) = some (a || b) := by
  cases a <;> cases b <;> rfl

theorem and_self (t : Truth) : and t t = t := by
  rcases t with _ | _ | _ <;> rfl

theorem true_and (t : Truth) : and (some true) t = t := by
  rcases t with _ | _ | _ <;> rfl

theorem not_not (t : Truth) : t.not.not = t := by
  rcases t with _ | _ | _ <;> rfl

/-- The conjunction of truth values. -/
def all (ts : List Truth) : Truth := ts.foldr and (some true)

@[simp] theorem all_nil : all [] = some true := rfl

@[simp] theorem all_cons (t : Truth) (ts : List Truth) : all (t :: ts) = and t (all ts) := rfl

theorem and_all_nil (t : Truth) : and t (all []) = t := by
  rcases t with _ | _ | _ <;> rfl

/-- False wins over unknown in a conjunction, wherever the two stand. -/
theorem all_eq (ts : List Truth) :
    all ts = if some false ∈ ts then some false else if none ∈ ts then none else some true := by
  induction ts with
  | nil => rfl
  | cons t ts ih =>
    rw [all_cons, ih]
    by_cases hfalse : some false ∈ ts <;> by_cases hunknown : none ∈ ts <;>
      rcases t with _ | _ | _ <;> simp [hfalse, hunknown, and]

end Truth

@[simp] theorem Datum.truth?_ofTruth (t : Truth) : (Datum.ofTruth t).truth? = some t := by
  cases t <;> rfl

/-! ## Conditions -/

namespace Expr

/-- The truth of a condition whose comparisons mean what `holds` says. `none` for anything but a
    condition, and where a comparison has no meaning. -/
def truth (holds : Comparator → Expr → Expr → Option Truth) : Expr → Option Truth
  | .compare op l r => holds op l r
  | .logical op l r => do return Truth.connect op (← l.truth holds) (← r.truth holds)
  | .not e => do return (← e.truth holds).not
  | _ => none

/-- Conditions of known truth, joined by `AND` behind another one. -/
theorem truth_foldl_and {holds : Comparator → Expr → Expr → Option Truth} {es : List Expr}
    {ts : List Truth} (h : es.map (truth holds) = ts.map some) {first : Expr} {t : Truth}
    (hfirst : first.truth holds = some t) :
    (es.foldl Expr.and first).truth holds = some (Truth.and t (Truth.all ts)) := by
  induction es generalizing ts first t with
  | nil =>
    obtain rfl := List.map_eq_nil_iff.1 h.symm
    rwa [Truth.and_all_nil]
  | cons e es ih =>
    obtain ⟨u, us, rfl, hu, hus⟩ := List.map_eq_cons_iff.1 h.symm
    have hnext : (first.and e).truth holds = some (Truth.and t u) := by
      simp [Expr.and, truth, hfirst, ← hu, Truth.connect]
    rw [List.foldl_cons, ih hus.symm hnext, Truth.all_cons]
    exact congrArg some (Truth.connect_assoc .and t u _)

/-- The meaning that comparisons have where columns have the data `env`. -/
def holdsIn (env : Column → Datum) (op : Comparator) (l r : Expr) : Option Truth := do
  return (← (← l.eval env).order? (← r.eval env)).map op.accepts

/-- A condition evaluates to its truth value. -/
theorem eval_of_truth {env : Column → Datum} {e : Expr} {t : Truth}
    (h : e.truth (holdsIn env) = some t) : e.eval env = some (.ofTruth t) := by
  induction e generalizing t with
  | compare op l r ihl ihr =>
    simp only [truth, holdsIn, Option.bind_eq_bind, Option.pure_def, Option.bind_eq_some_iff,
      Option.some.injEq] at h
    obtain ⟨a, ha, b, hb, o, ho, rfl⟩ := h
    simp [eval, Datum.compare?, ha, hb, ho]
  | logical op l r ihl ihr =>
    simp only [truth, Option.bind_eq_bind, Option.pure_def, Option.bind_eq_some_iff,
      Option.some.injEq] at h
    obtain ⟨a, ha, b, hb, rfl⟩ := h
    simp [eval, Datum.logical?, ihl ha, ihr hb]
  | not e ih =>
    simp only [truth, Option.bind_eq_bind, Option.pure_def, Option.bind_eq_some_iff,
      Option.some.injEq] at h
    obtain ⟨a, ha, rfl⟩ := h
    simp [eval, Datum.not?, ih ha]
  | _ => cases h

end Expr

end SqlExpr
