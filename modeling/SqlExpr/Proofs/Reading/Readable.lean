-- SUMMARY: Expressions whose rendering can be read back, and that their rewrites are such expressions.
import SqlExpr.Proofs.Row.Placement

/-!
# Expressions that can be read back

Comparisons bring no parentheses, and neither does a `NOT`. A node is `Readable` if it has
no such operand where an operator binds as tightly. Constructs of this kind have rewrites
of this kind (`Expr.readable_rewrite`).
-/

namespace SqlExpr

namespace Expr

/-- The expression is written with parentheses around it, or needs none. -/
def isClosed : Expr → Bool
  | .compare _ _ _ | .not _ | .rowCompare _ _ _ | .row _ => false
  | _ => true

/-- No operand of the node needs parentheses that it is not given, and rows stand only on the two
    sides of a row comparison. -/
def Readable : Expr → Prop
  | .column _ | .constant _ | .row _ => True
  | .call f args =>
    (∀ a ∈ args, a.isRow = false) ∧
    (f = .concat ∨ f = .binaryConcat → 2 ≤ args.length ∧ ∀ a ∈ args, a.isClosed)
  | .arith _ l r | .compare _ l r => l.isClosed ∧ r.isClosed
  | .logical _ l r => l.isRow = false ∧ r.isRow = false
  | .not e => e.isRow = false
  | .overlay source replacement start length =>
    source.isClosed ∧ replacement.isClosed ∧ start.isClosed ∧ ∀ n ∈ length, n.isClosed
  | .rowCompare _ left right =>
    left ≠ [] ∧ left.length = right.length ∧ ∀ a ∈ left ++ right, a.isClosed

@[simp] theorem isClosed_call (f : Builtin) (args : List Expr) :
    (Expr.call f args).isClosed = true :=
  rfl

@[simp] theorem isClosed_arith (op : ArithOp) (l r : Expr) : (Expr.arith op l r).isClosed = true :=
  rfl

@[simp] theorem isClosed_constant (c : Constant) : (Expr.constant c).isClosed = true := rfl

theorem isRow_of_isClosed {e : Expr} (h : e.isClosed = true) : e.isRow = false := by
  cases e with
  | row fields => cases h
  | _ => rfl

end Expr

/-! ## Rewrites -/

namespace Overlay

variable {o : Overlay}

private theorem isClosed_effectiveLength (h : ∀ n ∈ o.length, n.isClosed) :
    o.effectiveLength.isClosed := by
  unfold effectiveLength
  cases hgiven : o.length with
  | none => rfl
  | some n => exact h n hgiven

private theorem isClosed_rewrite {s : Support} {e : Expr} (h : o.rewrite s = some e) :
    e.isClosed := by
  cases s with
  | native => cases h
  | alternate | emulated =>
    cases h
    rfl

private theorem lengthFunction_ne (o : Overlay) :
    ¬(o.lengthFunction = .concat ∨ o.lengthFunction = .binaryConcat) := by
  unfold lengthFunction
  split <;> simp

end Overlay

namespace Expr

variable {d : Dialect}

theorem isClosed_of_rewrite {e e' : Expr} (h : e.rewrite d = some e') (hclosed : e.isClosed) :
    e'.isClosed := by
  cases e with
  | overlay source replacement start length => exact Overlay.isClosed_rewrite h
  | rowCompare op left right => cases hclosed
  | _ => cases h

/-- The rewrite of a construct can be read back if the construct can. -/
theorem readable_rewrite {e e' : Expr} (h : e.rewrite d = some e')
    (hreadable : e.Everywhere Readable) : e'.Everywhere Readable := by
  cases e with
  | overlay source replacement start length =>
    obtain ⟨hsource, hreplacement, hstart, hlength⟩ := hreadable.self
    have hn := Overlay.isClosed_effectiveLength (o := ⟨source, replacement, start, length⟩) hlength
    refine Overlay.everywhere_rewrite h hreadable ?_
    simp [Overlay.additions, Overlay.alternate, Overlay.emulated, Overlay.head, Overlay.tail, sub,
      add, literal, Readable, hsource, hreplacement, hstart, hn, isRow_of_isClosed,
      Overlay.lengthFunction_ne]
  | rowCompare op left right =>
    obtain ⟨-, -, hclosed⟩ := hreadable.self
    refine RowCompare.everywhere_rewrite h hreadable ?_ ?_ ?_
    · intro op l r hmem
      obtain ⟨hl, hr⟩ := List.of_mem_zip hmem
      exact ⟨hclosed l (List.mem_append_left _ hl), hclosed r (List.mem_append_right _ hr)⟩
    · intro op a b ha hb
      exact ⟨RowCompare.isRow_of_fieldwise ha, RowCompare.isRow_of_fieldwise hb⟩
    · intro a ha
      exact RowCompare.isRow_of_fieldwise ha
  | _ => cases h

end Expr

end SqlExpr
