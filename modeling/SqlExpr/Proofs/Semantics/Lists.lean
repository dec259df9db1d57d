-- SUMMARY: Evaluation of lists of operands and of chains of conditions.
import SqlExpr.Proofs.Expr.Chain
import SqlExpr.Proofs.Semantics.Condition

/-!
# Lists and chains

What a list of operands evaluates to depends only on what each of them evaluates to. A chain
of `AND` or `OR` has the value of its links joined from left to right, however it was nested.
-/

namespace SqlExpr

namespace Datum

/-- The connective on data that may not be there. -/
def connect? (op : Connective) (a b : Option Datum) : Option Datum := do
  logical? op (← a) (← b)

instance (op : Connective) : Std.Associative (connect? op) where
  assoc a b c := by
    rcases a with _ | a
    · rfl
    rcases b with _ | b
    · rfl
    rcases c with _ | c
    · simp [connect?]
    simp only [connect?, logical?, Option.bind_eq_bind, Option.bind_some]
    cases a.truth? <;> cases b.truth? <;> cases c.truth? <;> simp [Truth.connect_assoc]

/-- Both concatenations treat data alike. -/
theorem call?_binaryConcat (args : List Datum) :
    call? .binaryConcat args = call? .concat args := by
  unfold call?
  split
  · rfl
  · unfold result?
    split <;> simp_all

end Datum

namespace Expr

variable {env : Column → Datum}

/-! ## Lists -/

theorem evalList_cons {e : Expr} {es : List Expr} {vs : List Datum} :
    evalList env (e :: es) = some vs ↔
      ∃ v ws, e.eval env = some v ∧ evalList env es = some ws ∧ vs = v :: ws := by
  simp only [evalList, Option.bind_eq_bind, Option.bind_eq_some_iff, Option.pure_def,
    Option.some.injEq]
  constructor
  · rintro ⟨v, hv, ws, hws, rfl⟩
    exact ⟨v, ws, hv, hws, rfl⟩
  · rintro ⟨v, ws, hv, hws, rfl⟩
    exact ⟨v, hv, ws, hws, rfl⟩

theorem length_evalList {es : List Expr} {vs : List Datum}
    (h : evalList env es = some vs) : vs.length = es.length := by
  induction es generalizing vs with
  | nil =>
    cases h
    rfl
  | cons e es ih =>
    obtain ⟨v, ws, -, hws, rfl⟩ := evalList_cons.1 h
    exact congrArg Nat.succ (ih hws)

theorem evalOption_some {e : Expr} {n : Option Datum} :
    evalOption env (some e) = some n ↔ ∃ v, e.eval env = some v ∧ n = some v := by
  simp only [evalOption, Option.bind_eq_bind, Option.bind_eq_some_iff, Option.pure_def,
    Option.some.injEq]
  simp only [eq_comm]

/-- A function that keeps the value of every operand keeps their values together. -/
theorem evalList_map {f : Expr → Expr} {es : List Expr} {vs : List Datum}
    (h : evalList env es = some vs)
    (hf : ∀ e ∈ es, ∀ v, e.eval env = some v → (f e).eval env = some v) :
    evalList env (es.map f) = some vs := by
  induction es generalizing vs with
  | nil => exact h
  | cons e es ih =>
    obtain ⟨v, ws, hv, hws, rfl⟩ := evalList_cons.1 h
    have hrest := ih hws fun e he => hf e (List.mem_cons_of_mem _ he)
    exact evalList_cons.2 ⟨v, ws, hf e List.mem_cons_self v hv, hrest, rfl⟩

theorem evalOption_map {f : Expr → Expr} {o : Option Expr} {n : Option Datum}
    (h : evalOption env o = some n)
    (hf : ∀ e ∈ o, ∀ v, e.eval env = some v → (f e).eval env = some v) :
    evalOption env (o.map f) = some n := by
  cases o with
  | none => exact h
  | some e =>
    obtain ⟨v, hv, rfl⟩ := evalOption_some.1 h
    exact evalOption_some.2 ⟨v, hf e rfl v hv, rfl⟩

/-- Operands that evaluate alike can be exchanged, also where they do not evaluate at all. -/
theorem evalList_map_congr {f g : Expr → Expr} {es : List Expr}
    (h : ∀ e ∈ es, (f e).eval env = (g e).eval env) :
    evalList env (es.map f) = evalList env (es.map g) := by
  induction es with
  | nil => rfl
  | cons e es ih =>
    simp only [List.map_cons, evalList]
    rw [h e List.mem_cons_self, ih fun e he => h e (List.mem_cons_of_mem _ he)]

theorem evalOption_map_congr {f g : Expr → Expr} {o : Option Expr}
    (h : ∀ e ∈ o, (f e).eval env = (g e).eval env) :
    evalOption env (o.map f) = evalOption env (o.map g) := by
  cases o with
  | none => rfl
  | some e => simp only [Option.map_some, evalOption, h e rfl]

/-! ## Chains -/

theorem eval_foldl_logical (op : Connective) (e : Expr) (es : List Expr) :
    (es.foldl (.logical op) e).eval env =
      (es.map (eval env)).foldl (Datum.connect? op) (e.eval env) := by
  induction es generalizing e with
  | nil => rfl
  | cons e' es ih => exact ih (.logical op e e')

/-- A chain has the value of its links joined from left to right. -/
theorem value_chain {op : Connective} (value : Expr → Option Datum)
    (hvalue : ∀ l r, value (.logical op l r) = Datum.connect? op (value l) (value r))
    {e first : Expr} {rest : List Expr} (h : e.chain op = first :: rest) :
    value e = (rest.map value).foldl (Datum.connect? op) (value first) := by
  induction e using chain_induction op generalizing first rest with
  | link e hne =>
    rw [chain_of_ne hne] at h
    cases h
    rfl
  | node l r ihl ihr =>
    obtain ⟨a, as, hl⟩ := List.exists_cons_of_ne_nil (chain_ne_nil op l)
    obtain ⟨b, bs, hr⟩ := List.exists_cons_of_ne_nil (chain_ne_nil op r)
    rw [chain_logical, hl, hr] at h
    obtain ⟨rfl, rfl⟩ := List.cons.inj h
    rw [hvalue, ihl hl, ihr hr, List.append_eq, List.map_append, List.foldl_append,
      List.map_cons, List.foldl_cons, List.foldl_assoc]

end Expr

end SqlExpr
