-- SUMMARY: Trees that hold rows only on the two sides of row comparisons, and that their rewrites are such trees.
import SqlExpr.Proofs.Overlay.Additions
import SqlExpr.Proofs.Row.Fieldwise
import SqlExpr.Render.Piece

/-!
# Where rows stand

A row by itself is no value. It is one side of a row comparison, with as many fields as the other
side and no row among them. A tree that is `Paired` everywhere holds rows in no other place, and
neither do its rewrites (`Expr.paired_rewrite`), which are no rows themselves
(`Expr.isRow_of_rewrite`).
-/

namespace SqlExpr

namespace Expr

def isRow : Expr → Bool
  | .row _ => true
  | _ => false

@[simp] theorem isRow_call (f : Builtin) (args : List Expr) : (Expr.call f args).isRow = false :=
  rfl

@[simp] theorem isRow_arith (op : ArithOp) (l r : Expr) : (Expr.arith op l r).isRow = false := rfl

@[simp] theorem isRow_constant (c : Constant) : (Expr.constant c).isRow = false := rfl

/-- A node that is no row comparison holds no row. -/
def HoldsNoRow : Expr → Prop
  | .rowCompare _ _ _ => True
  | e => ∀ o ∈ e.operands, o.isRow = false

/-- All rows of the tree are sides of row comparisons, and none is a field of another. -/
structure RowsCompared (e : Expr) : Prop where
  isRow : e.isRow = false
  below : e.Everywhere HoldsNoRow

/-- If the node compares rows, these have fields, and as many on both sides. Any other node holds no
    row. -/
def Paired : Expr → Prop
  | .rowCompare _ left right => left ≠ [] ∧ left.length = right.length
  | e => ∀ o ∈ e.operands, o.isRow = false

/-- What a chain joins is no row, if that holds of both sides of every connective. -/
theorem isRow_of_mem_chain {P : Expr → Prop}
    (hP : ∀ op l r, P (.logical op l r) → l.isRow = false ∧ r.isRow = false) {op : Connective}
    {e x : Expr} (h : e.Everywhere P) (hrow : e.isRow = false) (hx : x ∈ e.chain op) :
    x.isRow = false := by
  fun_induction chain op e with
  | case1 l r ihl ihr =>
    obtain ⟨hnode, hl, hr⟩ := Everywhere.logical.1 h
    obtain ⟨hlrow, hrrow⟩ := hP _ l r hnode
    rcases List.mem_append.1 hx with hx | hx
    · exact ihl hl hlrow hx
    · exact ihr hr hrrow hx
  | case2 op' l r hne => rwa [List.mem_singleton.1 hx]
  | case3 e he => rwa [List.mem_singleton.1 hx]

end Expr

/-! ## Rewrites -/

theorem RowCompare.isRow_of_fieldwise {left right : List Expr} {e : Expr}
    (h : RowCompare.Fieldwise left right e) : e.isRow = false := by
  cases h with
  | _ => rfl

private theorem Overlay.isRow_effectiveLength {o : Overlay} (h : ∀ n ∈ o.length, n.isRow = false) :
    o.effectiveLength.isRow = false := by
  unfold effectiveLength
  cases hgiven : o.length with
  | none => rfl
  | some n => exact h n hgiven

theorem Overlay.isRow_of_rewrite {o : Overlay} {s : Support} {e : Expr} (h : o.rewrite s = some e) :
    e.isRow = false := by
  cases s with
  | native => cases h
  | alternate | emulated =>
    cases h
    rfl

namespace Expr

variable {d : Dialect}

theorem isRow_of_rewrite {e e' : Expr} (h : e.rewrite d = some e') : e'.isRow = false := by
  cases e with
  | overlay source replacement start length => exact Overlay.isRow_of_rewrite h
  | rowCompare op left right => exact RowCompare.isRow_of_fieldwise (RowCompare.fieldwise_rewrite h)
  | _ => cases h

/-- The rewrite of a tree that is paired everywhere is paired everywhere. -/
theorem paired_rewrite {e e' : Expr} (h : e.rewrite d = some e') (hpaired : e.Everywhere Paired) :
    e'.Everywhere Paired := by
  cases e with
  | overlay source replacement start length =>
    have hheld : ∀ x ∈ (Expr.overlay source replacement start length).operands, x.isRow = false :=
      hpaired.self
    simp only [operands, slots, List.mem_filterMap, List.mem_cons, id, exists_eq_right,
      Option.some.injEq, List.not_mem_nil, or_false] at hheld
    have hsource := hheld source (.inl rfl)
    have hreplacement := hheld replacement (.inr (.inl rfl))
    have hstart := hheld start (.inr (.inr (.inl rfl)))
    have hn := Overlay.isRow_effectiveLength (o := ⟨source, replacement, start, length⟩)
      fun n hn => hheld n (.inr (.inr (.inr (Eq.symm hn))))
    refine Overlay.everywhere_rewrite h hpaired ?_
    simp [Overlay.additions, Overlay.alternate, Overlay.emulated, Overlay.head, Overlay.tail, sub,
      add, literal, Paired, operands, slots, hsource, hreplacement, hstart, hn]
  | rowCompare op left right =>
    obtain ⟨-, hleft, hright⟩ := Everywhere.rowCompare.1 hpaired
    refine RowCompare.everywhere_rewrite h hpaired ?_ ?_ ?_
    · intro op l r hmem
      obtain ⟨hl, hr⟩ := List.of_mem_zip hmem
      have hlrow : l.isRow = false := hleft.self l (by simpa [operands, slots] using hl)
      have hrrow : r.isRow = false := hright.self r (by simpa [operands, slots] using hr)
      simp [Paired, operands, slots, hlrow, hrrow]
    · intro op a b ha hb
      simp [Paired, operands, slots, RowCompare.isRow_of_fieldwise ha,
        RowCompare.isRow_of_fieldwise hb]
    · intro a ha
      simp [Paired, operands, slots, RowCompare.isRow_of_fieldwise ha]
  | _ => cases h

end Expr

end SqlExpr
