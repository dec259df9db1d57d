-- SUMMARY: Equations of lowering, and induction over an expression together with its rewrites.
import SqlExpr.Render.Walk

/-!
# Lowering

`Expr.lower` walks a tree as rendering does: a construct that the dialect lacks gives way
to its rewrite, which is walked in its turn. `Expr.lowering_induction` is the induction
that follows this walk. A rewrite may be larger than the construct, so the induction is
on the height and not on the size.
-/

namespace SqlExpr.Expr

variable {d : Dialect}

/-! ## Equations -/

/-- The node with everything that it holds lowered. -/
def lowerOperands (d : Dialect) : Expr → Expr
  | .column c => .column c
  | .constant c => .constant c
  | .call f args => .call f (args.map (lower d))
  | .arith op l r => .arith op (l.lower d) (r.lower d)
  | .compare op l r => .compare op (l.lower d) (r.lower d)
  | .logical op l r => .logical op (l.lower d) (r.lower d)
  | .not e => .not (e.lower d)
  | .row fields => .row (fields.map (lower d))
  | .overlay source replacement start length =>
    .overlay (source.lower d) (replacement.lower d) (start.lower d) (length.map (lower d))
  | .rowCompare op left right => .rowCompare op (left.map (lower d)) (right.map (lower d))

/-- A construct with a rewrite is walked as the rewrite, any other node through its operands. -/
theorem lower_eq (d : Dialect) (e : Expr) :
    e.lower d = (e.rewrite d).elim (e.lowerOperands d) (lower d) := by
  cases e with
  | overlay source replacement start length =>
    rw [lower]
    split
    · rename_i e' h
      rw [h, Option.elim_some]
    · rename_i h
      have hnative (node : Expr) : ((Expr.overlay source replacement start length).rewrite d).elim
          node (lower d) = node := by
        rw [h, Option.elim_none]
      rw [hnative]
      cases length <;> rfl
  | rowCompare op left right =>
    rw [lower]
    split
    · rename_i e' h
      rw [h, Option.elim_some]
    · rename_i h
      rw [h, Option.elim_none, List.attach_map_val, List.attach_map_val, lowerOperands]
  | call f args => rw [lower, List.attach_map_val]; rfl
  | row fields => rw [lower, List.attach_map_val]; rfl
  | _ => rw [lower]; rfl

theorem lower_of_rewrite {e e' : Expr} (h : e.rewrite d = some e') : e.lower d = e'.lower d := by
  rw [lower_eq, h, Option.elim_some]

theorem lower_of_native {e : Expr} (h : e.rewrite d = none) : e.lower d = e.lowerOperands d := by
  rw [lower_eq, h, Option.elim_none]

@[simp] theorem lower_column (c : Column) : (Expr.column c).lower d = .column c :=
  lower_of_native rfl

@[simp] theorem lower_constant (c : Constant) : (Expr.constant c).lower d = .constant c :=
  lower_of_native rfl

@[simp] theorem lower_call (f : Builtin) (args : List Expr) :
    (Expr.call f args).lower d = .call f (args.map (lower d)) :=
  lower_of_native rfl

@[simp] theorem lower_arith (op : ArithOp) (l r : Expr) :
    (Expr.arith op l r).lower d = .arith op (l.lower d) (r.lower d) :=
  lower_of_native rfl

@[simp] theorem lower_compare (op : Comparator) (l r : Expr) :
    (Expr.compare op l r).lower d = .compare op (l.lower d) (r.lower d) :=
  lower_of_native rfl

@[simp] theorem lower_logical (op : Connective) (l r : Expr) :
    (Expr.logical op l r).lower d = .logical op (l.lower d) (r.lower d) :=
  lower_of_native rfl

@[simp] theorem lower_not (e : Expr) : (Expr.not e).lower d = .not (e.lower d) :=
  lower_of_native rfl

@[simp] theorem lower_row (fields : List Expr) :
    (Expr.row fields).lower d = .row (fields.map (lower d)) :=
  lower_of_native rfl

theorem lower_overlay {source replacement start : Expr} {length : Option Expr}
    (h : (Expr.overlay source replacement start length).rewrite d = none) :
    (Expr.overlay source replacement start length).lower d =
      .overlay (source.lower d) (replacement.lower d) (start.lower d) (length.map (lower d)) :=
  lower_of_native h

theorem lower_rowCompare {op : Comparator} {left right : List Expr}
    (h : (Expr.rowCompare op left right).rewrite d = none) :
    (Expr.rowCompare op left right).lower d =
      .rowCompare op (left.map (lower d)) (right.map (lower d)) :=
  lower_of_native h

theorem operands_lowerOperands (d : Dialect) (e : Expr) :
    (e.lowerOperands d).operands = e.operands.map (lower d) := by
  cases e with
  | overlay source replacement start length =>
    cases length <;> simp [lowerOperands, operands, slots]
  | rowCompare op left right => simp [lowerOperands, operands, slots]
  | _ => simp [lowerOperands, operands, slots]

/-! ## Induction -/

theorem height_lt_of_mem_operands {e e' : Expr} (h : e' ∈ e.operands) : e'.height < e.height := by
  cases e with
  | logical op l r =>
    simp only [mem_operands, slots, List.mem_cons, Option.some.injEq, List.not_mem_nil,
      or_false] at h
    simp only [height]
    rcases h with rfl | rfl
    · omega
    · omega
  | _ => exact height_lt_of_mem_links h

section

attribute [local simp] mem_operands slots

/-- To prove a statement for every expression, prove it for a construct from the statement for
    its rewrite, and for every node that is written as it is from the statement for what the node
    holds. -/
theorem lowering_induction (d : Dialect) {motive : Expr → Prop}
    (rewritten : ∀ e e', e.rewrite d = some e' → motive e' → motive e)
    (column : ∀ c, motive (.column c))
    (constant : ∀ c, motive (.constant c))
    (call : ∀ f args, (∀ a ∈ args, motive a) → motive (.call f args))
    (arith : ∀ op l r, motive l → motive r → motive (.arith op l r))
    (compare : ∀ op l r, motive l → motive r → motive (.compare op l r))
    (logical : ∀ op l r, motive l → motive r → (∀ x ∈ (Expr.logical op l r).chain op, motive x) →
      motive (.logical op l r))
    (not : ∀ e, motive e → motive (.not e))
    (row : ∀ fields, (∀ a ∈ fields, motive a) → motive (.row fields))
    (overlay : ∀ source replacement start length,
      (Expr.overlay source replacement start length).rewrite d = none → motive source →
      motive replacement → motive start → (∀ n ∈ length, motive n) →
      motive (.overlay source replacement start length))
    (rowCompare : ∀ op left right, (Expr.rowCompare op left right).rewrite d = none →
      (∀ a ∈ left, motive a) → (∀ a ∈ right, motive a) → motive (.rowCompare op left right))
    (e : Expr) : motive e := by
  induction h : e.height using Nat.strongRecOn generalizing e with
  | _ n ih =>
  subst h
  have below : ∀ e', e'.height < e.height → motive e' := fun e' h => ih _ h e' rfl
  have held : ∀ e' ∈ e.operands, motive e' := fun e' h => below e' (height_lt_of_mem_operands h)
  cases hrewrite : e.rewrite d with
  | some e' => exact rewritten e e' hrewrite (below e' (height_rewrite_lt hrewrite))
  | none =>
    cases e with
    | column c => exact column c
    | constant c => exact constant c
    | call f args => exact call f args fun a ha => held a (by simpa using ha)
    | arith op l r => exact arith op l r (held l (by simp)) (held r (by simp))
    | compare op l r => exact compare op l r (held l (by simp)) (held r (by simp))
    | logical op l r =>
      exact logical op l r (held l (by simp)) (held r (by simp))
        fun x hx => below x (height_lt_of_mem_chain_logical hx)
    | not e => exact not e (held e (by simp))
    | row fields => exact row fields fun a ha => held a (by simpa using ha)
    | overlay source replacement start length =>
      refine overlay source replacement start length hrewrite (held source (by simp))
        (held replacement (by simp)) (held start (by simp)) ?_
      rintro n rfl
      exact held n (by simp)
    | rowCompare op left right =>
      -- The fields are two levels down, below the rows.
      have field (fields : List Expr)
          (hrow : .row fields ∈ (Expr.rowCompare op left right).operands) (a : Expr)
          (ha : a ∈ fields) : motive a := by
        have hfield : a.height < (Expr.row fields).height :=
          height_lt_of_mem_operands (by simpa using ha)
        exact below a (Nat.lt_trans hfield (height_lt_of_mem_operands hrow))
      exact rowCompare op left right hrewrite (field left (by simp)) (field right (by simp))

end

end SqlExpr.Expr
