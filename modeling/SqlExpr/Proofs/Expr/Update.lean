-- SUMMARY: When exchanging an operand of a construct is the same as building it from the start.
import SqlExpr.Proofs.Overlay.Update
import SqlExpr.Proofs.Row.Update

/-!
# Update against rebuild

A construct keeps its operands with the types that its builder gave them, and exchanging an
operand goes through the builder with the operands that are kept. The types outlive the operand
they were taken from, so the exchange may differ from a construct that never had that operand
(`setOperand_beside_typed_null`). `setOperand_eq_rebuild` says when it does not.
-/

namespace SqlExpr

/-- Exchanging an operand is building the construct with the new operand from the start, errors
    included, if the operand that stays does not show what it was built with. Otherwise a row
    comparison or an overlay that can be built comes out another one. -/
theorem setOperand_eq_rebuild :
    (∀ (op : Comparator) (l r : Row) (c : RowCompare), RowCompare.new op l r = .ok c →
      ∀ x : Expr,
        (Row.Pointwise Expr.SettledOnRight r c.right (.ofExpr x) →
          c.setOperand 0 x = RowCompare.new op (.ofExpr x) r) ∧
        (Row.Pointwise Expr.SettledOnLeft l c.left (.ofExpr x) →
          c.setOperand 1 x = RowCompare.new op l (.ofExpr x)) ∧
        (∀ c', RowCompare.new op (.ofExpr x) r = .ok c' →
          (c.setOperand 0 x = .ok c' ↔ Row.Pointwise Expr.SettledOnRight r c.right (.ofExpr x))) ∧
        (∀ c', RowCompare.new op l (.ofExpr x) = .ok c' →
          (c.setOperand 1 x = .ok c' ↔ Row.Pointwise Expr.SettledOnLeft l c.left (.ofExpr x)))) ∧
    (∀ (source replacement start length : Option Expr) (o : Overlay),
      Overlay.ofOperands source replacement start length = .ok o →
      ∀ v : Option Expr,
        (o.setOperand 0 v = Overlay.ofOperands v replacement start length ↔
          Overlay.ReplacementSettled (source.getD (.null .unknown))
            (replacement.getD (.null .unknown)) (v.getD (.null .unknown))) ∧
        (o.setOperand 1 v = Overlay.ofOperands source v start length ↔
          Overlay.SourceSettled (source.getD (.null .unknown))
            (replacement.getD (.null .unknown)) (v.getD (.null .unknown))) ∧
        o.setOperand 2 v = Overlay.ofOperands source replacement v length ∧
        o.setOperand 3 v = Overlay.ofOperands source replacement start v) := by
  constructor
  · intro op l r c h x
    obtain ⟨hleft, hleft'⟩ := RowCompare.setOperand_left_eq h x
    obtain ⟨hright, hright'⟩ := RowCompare.setOperand_right_eq h x
    exact ⟨hleft, hright,
      fun c' hc' => ⟨hleft' c' hc', fun hs => (hleft hs).trans hc'⟩,
      fun c' hc' => ⟨hright' c' hc', fun hs => (hright hs).trans hc'⟩⟩
  · intro source replacement start length o h v
    exact ⟨Overlay.setOperand_source_eq_iff h v, Overlay.setOperand_replacement_eq_iff h v,
      Overlay.setOperand_start_eq h v, Overlay.setOperand_length_eq h v⟩

/-- `NULL` beside a column: another column of the same type is as good as from the start, a text
    is not, and an overlay takes another position. -/
theorem setOperand_eq_rebuild_column :
    let n : Expr := .column ⟨none, "n", .integer⟩
    let m : Expr := .column ⟨none, "m", .integer⟩
    let text : Expr := .bind (.text "x")
    let c : RowCompare := ⟨.eq, ⟨[.null .integer]⟩, ⟨[n]⟩⟩
    let o : Overlay := ⟨text, .null (.varchar none), .bind (.int 1), none⟩
    c.setOperand 1 m = RowCompare.new .eq ⟨[.null .unknown]⟩ (.ofExpr m) ∧
      c.setOperand 1 text ≠ .ok ⟨.eq, ⟨[.null (.varchar none)]⟩, ⟨[text]⟩⟩ ∧
      o.setOperand 2 (some n) = Overlay.ofOperands (some text) none (some n) none := by
  intro n m text c o
  have hc : RowCompare.new .eq ⟨[.null .unknown]⟩ ⟨[n]⟩ = .ok c := rfl
  refine ⟨(setOperand_eq_rebuild.1 _ _ _ _ hc m).2.1 ?_, fun h => ?_,
    (setOperand_eq_rebuild.2 (some text) none (some (.bind (.int 1))) none o rfl (some n)).2.2.1⟩
  · intro p hp
    rw [List.mem_singleton.1 hp]
    exact .overwritten rfl (by decide) rfl rfl
  · have hsettled := ((setOperand_eq_rebuild.1 _ _ _ _ hc text).2.2.2 _ rfl).1 h
    cases hsettled _ (List.mem_singleton.2 rfl) with
    | kept h => cases h
    | overwritten hnew => cases hnew
    | alike _ _ htype => cases htype

/-- An untyped `NULL` that was compared with a number is a number from then on: no text can be
    compared with it, although a text could have been from the start. -/
theorem setOperand_beside_typed_null :
    let number : Row := ⟨[.column ⟨none, "n", .integer⟩]⟩
    let text : Expr := .bind (.text "x")
    ∃ c, RowCompare.new .eq ⟨[.null .unknown]⟩ number = .ok c ∧
      c.setOperand 1 text =
        .error (.typeConformance .rowComparison 1 (.ofFamily .numeric) (.varchar none)) ∧
      RowCompare.new .eq ⟨[.null .unknown]⟩ (.ofExpr text) =
        .ok ⟨.eq, ⟨[.null (.varchar none)]⟩, ⟨[text]⟩⟩ :=
  ⟨_, rfl, rfl, rfl⟩

end SqlExpr
