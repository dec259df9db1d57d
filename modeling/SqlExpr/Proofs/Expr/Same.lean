-- SUMMARY: What expressions that compare equal have in common, and when they are one.
import SqlExpr.Expr.Equality
import SqlExpr.Proofs.Expr.Everywhere
import SqlExpr.Proofs.Expr.Operand

/-!
# Expressions that compare equal

Expressions that compare equal are nodes of one kind, and so are their operands. Only the constants
that they end in may differ, and these only in the sign of a zero: if one of two expressions that
compare equal holds no floating point zero, it is the other one (`Expr.eq_of_same`).
-/

namespace SqlExpr

/-! ## Constants -/

private theorem Double.eq_of_sameNumber {x y : Double} (h : x.sameNumber y = true)
    (hy : y.isZero = false) : x = y := by
  cases x; cases y
  simp_all [Double.sameNumber]

theorem Value.eq_of_same {v w : Value} (h : v.same w = true)
    (hw : ∀ x, w = .float x → x.isZero = false) : v = w := by
  cases v with
  | float x =>
    cases w with
    | float y => rw [Double.eq_of_sameNumber h (hw y rfl)]
    | _ => cases h
  | _ => exact (same_eq_true_of_not_float (by simp)).1 h

namespace Expr

/-! ## Nodes -/

private theorem forall₂_of_sameList {es es' : List Expr} (h : sameList es es' = true) :
    List.Forall₂ (fun a b => a.same b = true) es es' := by
  induction es generalizing es' with
  | nil =>
    cases es' with
    | nil => exact .nil
    | cons => cases h
  | cons e es ih =>
    cases es' with
    | nil => cases h
    | cons e' es' =>
      obtain ⟨h, hrest⟩ := Bool.and_eq_true_iff.1 h
      exact .cons h (ih hrest)

private theorem rel_same_of_sameOption {o o' : Option Expr} (h : sameOption o o' = true) :
    Option.Rel (fun a b => a.same b = true) o o' := by
  cases o with
  | none =>
    cases o' with
    | none => exact .none
    | some => cases h
  | some e =>
    cases o' with
    | none => cases h
    | some e' => exact .some h

/-- The operands at every position compare equal. -/
def SameOperands (a b : Expr) : Prop :=
  List.Forall₂ (Option.Rel fun x y => x.same y = true) a.slots b.slots

private theorem sameOperands_map {es es' : List Expr} (h : sameList es es' = true) :
    List.Forall₂ (Option.Rel fun x y => x.same y = true) (es.map some) (es'.map some) :=
  List.forall₂_map_left_iff.2
    (List.forall₂_map_right_iff.2 ((forall₂_of_sameList h).imp fun _ _ h => .some h))

/-- Expressions that compare equal are nodes of one kind with operands that compare equal, if they
    are no constants. -/
theorem sameNode_of_same {a b : Expr} (h : a.same b = true) (hconstant : ∀ c, a ≠ .constant c) :
    SameNode a b ∧ SameOperands a b := by
  have pair {l r l' r' : Expr} (hl : l.same l' = true) (hr : r.same r' = true) :
      List.Forall₂ (Option.Rel fun x y => x.same y = true) [some l, some r] [some l', some r'] :=
    .cons (.some hl) (.cons (.some hr) .nil)
  fun_cases same a b <;> simp only [same, Bool.and_eq_true, beq_iff_eq] at h
  case case1 c c' =>
    subst h
    exact ⟨.column c, .nil⟩
  case case2 c c' => exact absurd rfl (hconstant c)
  case case3 f args f' args' =>
    obtain ⟨rfl, h⟩ := h
    exact ⟨.call .., sameOperands_map h⟩
  case case4 | case5 | case6 =>
    obtain ⟨⟨rfl, hl⟩, hr⟩ := h
    exact ⟨by constructor, pair hl hr⟩
  case case7 e e' => exact ⟨.not .., .cons (.some h) .nil⟩
  case case8 fields fields' => exact ⟨.row .., sameOperands_map h⟩
  case case9 s r p n s' r' p' n' =>
    obtain ⟨⟨⟨hs, hr⟩, hp⟩, hn⟩ := h
    exact ⟨.overlay .., .cons (.some hs) (.cons (.some hr) (.cons (.some hp)
      (.cons (rel_same_of_sameOption hn) .nil)))⟩
  case case10 op l r op' l' r' =>
    obtain ⟨⟨rfl, hl⟩, hr⟩ := h
    exact ⟨.rowCompare .., pair hl hr⟩
  case case11 => cases h

/-- A node is given by its kind and its operands. -/
private theorem eq_of_sameNode {a b : Expr} (h : SameNode a b) (hslots : a.slots = b.slots) :
    a = b := by
  cases h with
  | column | constant => rfl
  | call f args args' =>
    exact congrArg (Expr.call f) (List.map_injective_iff.2 (fun _ _ => Option.some.inj) hslots)
  | row fields fields' =>
    exact congrArg Expr.row (List.map_injective_iff.2 (fun _ _ => Option.some.inj) hslots)
  | _ => simp_all [slots]

/-! ## Trees -/

/-- The node is no floating point zero. -/
def NoZero : Expr → Prop
  | .constant ⟨.float x, _, _⟩ => x.isZero = false
  | _ => True

private theorem eq_of_same_constant {c : Constant} {b : Expr} (h : (Expr.constant c).same b = true)
    (hb : b.NoZero) : .constant c = b := by
  cases b with
  | constant c' =>
    obtain ⟨v, t, inline⟩ := c
    obtain ⟨v', t', inline'⟩ := c'
    simp only [same, Constant.same, Bool.and_eq_true, beq_iff_eq] at h
    obtain ⟨⟨hvalue, rfl⟩, rfl⟩ := h
    obtain rfl := Value.eq_of_same hvalue fun x hx => by subst hx; exact hb
    rfl
  | _ => cases h

/-- Expressions that compare equal are identical if one of them holds no floating point zero. -/
theorem eq_of_same {a b : Expr} (h : a.same b = true) (hb : b.Everywhere NoZero) : a = b := by
  induction a using operand_induction generalizing b with
  | node a ih =>
    by_cases hconstant : ∃ c, a = .constant c
    · obtain ⟨c, rfl⟩ := hconstant
      exact eq_of_same_constant h hb.self
    · obtain ⟨hnode, hoperands⟩ := sameNode_of_same h fun c hc => hconstant ⟨c, hc⟩
      refine eq_of_sameNode hnode ?_
      obtain ⟨hlength, hzip⟩ := List.forall₂_iff_zip.1 hoperands
      rw [← List.forall₂_eq_eq_eq]
      refine List.forall₂_iff_zip.2 ⟨hlength, fun {x y} hmem => ?_⟩
      obtain ⟨hx, hy⟩ := List.of_mem_zip hmem
      cases hzip hmem with
      | none => rfl
      | some hsame =>
        refine congrArg some (ih _ (mem_operands.2 hx) hsame ?_)
        exact (Everywhere.iff_operands.1 hb).2 _ (mem_operands.2 hy)

end Expr

end SqlExpr
