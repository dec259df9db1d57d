-- SUMMARY: Comparisons of comparisons, regrouped to the left and to the right.
import SqlExpr.Proofs.Expr.Everywhere
import SqlExpr.Semantics.Eval

/-!
# Grouping of comparisons

A chain `a < b < c` is one of two trees. `Expr.regrouped` nests every chain of comparisons to
the left, which is how SQL reads it, and `Expr.unrolled` to the right, which is how it is
written from left to right. Both drop the declared types of columns, of which neither the
text nor the value of an expression knows.
-/

namespace SqlExpr.Expr

/-- The expression consists of columns, comparisons and `NOT`. -/
inductive Comparisons : Expr → Prop
  | column (c : Column) : Comparisons (.column c)
  | compare (op : Comparator) {l r : Expr} (hl : Comparisons l) (hr : Comparisons r) :
    Comparisons (.compare op l r)
  | not {e : Expr} (he : Comparisons e) : Comparisons (.not e)

/-- The expression with the types of its columns forgotten. -/
def untyped : Expr → Expr
  | .column c => .column { c with dataType := .unknown }
  | .compare op l r => .compare op l.untyped r.untyped
  | .not e => .not e.untyped
  | e => e

/-! ## To the left -/

/-- The comparison of `l` with the first operand of a chain, and the chain behind it. -/
def graft (op : Comparator) (l : Expr) : (chain : Expr) → Expr
  | .compare op' first r => .compare op' (graft op l first) r
  | r => .compare op l r

/-- The expression with its comparisons nested to the left. -/
def regrouped : Expr → Expr
  | .column c => .column { c with dataType := .unknown }
  | .compare op l r => graft op l.regrouped r.regrouped
  | .not e => .not e.regrouped
  | e => e

/-- Chains can be put together in any order. -/
private theorem graft_graft (op op' : Comparator) (a b c : Expr) :
    graft op (graft op' a b) c = graft op' a (graft op b c) := by
  induction c with
  | compare op'' l r ihl ihr => simp only [graft, ihl]
  | _ => rfl

/-- The right operand of a comparison is no comparison. -/
def ComparesLeft : Expr → Prop
  | .compare _ _ (.compare _ _ _) => False
  | _ => True

/-- Comparisons that are nested to the left stay as they are. -/
theorem regrouped_of_comparesLeft {e : Expr} (h : e.Everywhere ComparesLeft) :
    e.regrouped = e.untyped := by
  induction e with
  | compare op l r ihl ihr =>
    obtain ⟨hnode, hl, hr⟩ := Everywhere.compare.1 h
    rw [regrouped, untyped, ihl hl, ihr hr]
    cases r with
    | compare op' a b => exact hnode.elim
    | _ => rfl
  | not e ih =>
    rw [regrouped, untyped, ih (Everywhere.not.1 h).2]
  | _ => rfl

/-! ## To the right -/

/-- The chain with another comparison at its end. -/
def extend (op : Comparator) (last : Expr) : (chain : Expr) → Expr
  | .compare op' l rest => .compare op' l (extend op last rest)
  | l => .compare op l last

/-- The expression with its comparisons nested to the right. -/
def unrolled : Expr → Expr
  | .column c => .column { c with dataType := .unknown }
  | .compare op l r => extend op r.unrolled l.unrolled
  | .not e => .not e.unrolled
  | e => e

private theorem regrouped_extend (op : Comparator) (last chain : Expr) :
    (extend op last chain).regrouped = graft op chain.regrouped last.regrouped := by
  induction chain with
  | compare op' l rest ihl ihrest => rw [extend, regrouped, ihrest, regrouped, graft_graft]
  | _ => rfl

/-- Nesting to the right does not matter to nesting to the left. -/
theorem regrouped_unrolled (e : Expr) : e.unrolled.regrouped = e.regrouped := by
  induction e with
  | compare op l r ihl ihr => rw [unrolled, regrouped_extend, ihl, ihr, regrouped]
  | not e ih => rw [unrolled, regrouped, ih, regrouped]
  | _ => rfl

mutual
/-- What an unrolled comparison has on its left: a column or a `NOT`. -/
inductive Comparand : Expr → Prop
  | column (table : Option String) (name : String) : Comparand (.column ⟨table, name, .unknown⟩)
  | not {e : Expr} (he : Unrolled e) : Comparand (.not e)

/-- The comparisons of the expression are nested to the right. -/
inductive Unrolled : Expr → Prop
  | comparand {e : Expr} (he : Comparand e) : Unrolled e
  | compare (op : Comparator) {l r : Expr} (hl : Comparand l) (hr : Unrolled r) :
    Unrolled (.compare op l r)
end

theorem Unrolled.extend (op : Comparator) {last chain : Expr} (hlast : Unrolled last)
    (hchain : Unrolled chain) : Unrolled (extend op last chain) := by
  induction chain with
  | compare op' l rest ihl ihrest =>
    cases hchain with
    | comparand h => cases h
    | compare _ hl hrest => exact .compare op' hl (ihrest hrest)
  | column c =>
    cases hchain with
    | comparand h => exact .compare op h hlast
  | not e ih =>
    cases hchain with
    | comparand h => exact .compare op h hlast
  | _ => cases hchain with | comparand h => cases h

theorem Comparisons.unrolled {e : Expr} (h : Comparisons e) : Unrolled e.unrolled := by
  induction h with
  | column c => exact .comparand (.column c.table c.name)
  | compare op hl hr ihl ihr => exact ihr.extend op ihl
  | not he ih => exact .comparand (.not ih)

/-! ## Evaluation -/

/-- Where data belong to the names of columns, the types of columns do not matter. -/
theorem eval_untyped (env : Option String → String → Datum) {e : Expr} (h : Comparisons e) :
    e.untyped.eval (fun c => env c.table c.name) = e.eval (fun c => env c.table c.name) := by
  induction h with
  | column c => rfl
  | compare op hl hr ihl ihr => rw [untyped, eval, ihl, ihr, eval]
  | not he ih => rw [untyped, eval, ih, eval]

end SqlExpr.Expr
