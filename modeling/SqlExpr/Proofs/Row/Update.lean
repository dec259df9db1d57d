-- SUMMARY: Row comparisons with one row exchanged, against comparisons built with it from the start.
import SqlExpr.Proofs.Row.Conformance

/-!
# Exchanging a row of a comparison

`RowCompare.setOperand` compares the new row with the row that the comparison holds, in which
constants may have got their types from the row that goes. `SettledOnLeft` and `SettledOnRight`
say of one position when these types make no difference. Where they hold of all positions, the
exchange is as good as a comparison built from the start, and no other exchange is if that
comparison can be built (`RowCompare.setOperand_right_eq`, `RowCompare.setOperand_left_eq`).
-/

namespace SqlExpr

/-! ## One position -/

namespace Expr

/-- A left field that was given as `given` and is held as `stored` meets the right field `new`
    as it would have from the start. -/
inductive SettledOnLeft (given stored new : Expr) : Prop
  /-- Building the comparison left the field as it was. -/
  | kept (h : stored = given)
  /-- The new field gives its own type to both. -/
  | overwritten (hnew : new.isConstant = false) (htype : new.dataType ≠ .unknown)
      (hgiven : given.takes new.dataType = true) (hstored : stored.takes new.dataType = true)
  /-- The new field is a constant of the very type that the field got. -/
  | alike (hnew : new.isConstant = true) (hgiven : given.dataType = .unknown)
      (htype : new.dataType = stored.dataType)

/-- A right field that was given as `given` and is held as `stored` meets the left field `new`
    as it would have from the start. -/
inductive SettledOnRight (given stored new : Expr) : Prop
  /-- Building the comparison left the field as it was. -/
  | kept (h : stored = given)
  /-- The new field gives its own type to both. -/
  | overwritten (htype : new.dataType ≠ .unknown)
      (hgiven : given.takes new.dataType = true) (hstored : stored.takes new.dataType = true)

variable {given new : Expr} {t : DataType}

namespace SettledOnLeft

/-- The new field stays as it is. -/
theorem meets_right (h : SettledOnLeft given (given.cast t) new) :
    Row.conformField 1 new (given.cast t) = Row.conformField 1 new given := by
  cases h with
  | kept h => rw [h]
  | overwritten hnew =>
    rw [Row.conformField_of_takes (takes_of_not_constant hnew _),
      Row.conformField_of_takes (takes_of_not_constant hnew _),
      cast_of_not_constant hnew, cast_of_not_constant hnew]
  | alike hnew hgiven htype =>
    rw [Row.conformField_of_takes (by rw [← htype]; exact takes_dataType new),
      Row.conformField_of_takes (by rw [hgiven]; exact takes_unknown new),
      ← htype, hgiven, cast_of_dataType rfl, cast_unknown]

theorem meets_left (h : SettledOnLeft given (given.cast t) new) :
    Row.conformField 0 (given.cast t) ((given.cast t).metRight new) =
      Row.conformField 0 given (given.metRight new) := by
  cases h with
  | kept h => rw [h]
  | overwritten hnew htype hgiven hstored =>
    rw [metRight, metRight, cast_of_not_constant hnew, cast_of_not_constant hnew,
      Row.conformField_of_takes hstored, Row.conformField_of_takes hgiven, cast_cast htype]
  | alike hnew hgiven htype =>
    rw [metRight, metRight, hgiven, cast_unknown, cast_of_dataType htype,
      Row.conformField_of_takes (by rw [htype]; exact takes_dataType _),
      Row.conformField_of_takes (takes_of_dataType_unknown hgiven _), htype,
      cast_of_dataType rfl]
    rcases cast_eq_or given t with h | ⟨-, -, h⟩
    · rw [h, cast_of_dataType rfl]
    · rw [h]

/-- Fields that come out alike were settled. -/
theorem of_eq (hgiven : Meets given new) (hstored : Meets (given.cast t) new)
    (hleft : (given.cast t).metLeft new = given.metLeft new)
    (hright : (given.cast t).metRight new = given.metRight new) :
    SettledOnLeft given (given.cast t) new := by
  rcases cast_eq_or given t with h | ⟨hconstant, ht, h⟩
  · exact .kept h
  cases hnew : new.isConstant with
  | true =>
    rw [metRight, metRight, h] at hright
    by_cases hu : given.dataType = .unknown
    · rw [hu, cast_unknown] at hright
      exact .alike hnew hu (by rw [h, ← hright, dataType_cast hnew ht])
    · have : t = given.dataType := by
        rw [← dataType_cast hnew ht, hright, dataType_cast hnew hu]
      exact .kept (cast_of_dataType this.symm)
  | false =>
    have hgiven := hgiven.left
    have hstored := hstored.left
    simp only [metLeft, metRight, cast_of_not_constant hnew] at hgiven hstored hleft
    by_cases hu : new.dataType = .unknown
    · rw [hu, cast_unknown, cast_unknown] at hleft
      exact .kept hleft
    · exact .overwritten hnew hu hgiven hstored

end SettledOnLeft

namespace SettledOnRight

theorem meets_right (h : SettledOnRight given (given.cast t) new) :
    Row.conformField 1 (given.cast t) new = Row.conformField 1 given new := by
  cases h with
  | kept h => rw [h]
  | overwritten htype hgiven hstored =>
    rw [Row.conformField_of_takes hstored, Row.conformField_of_takes hgiven, cast_cast htype]

theorem meets_left (h : SettledOnRight given (given.cast t) new) :
    Row.conformField 0 new (new.metRight (given.cast t)) =
      Row.conformField 0 new (new.metRight given) := by
  cases h with
  | kept h => rw [h]
  | overwritten htype => rw [metRight, metRight, cast_cast htype]

/-- Fields that come out alike were settled. -/
theorem of_eq (hgiven : Meets new given) (hstored : Meets new (given.cast t))
    (hright : new.metRight (given.cast t) = new.metRight given) :
    SettledOnRight given (given.cast t) new := by
  by_cases htype : new.dataType = .unknown
  · rw [metRight, metRight, htype, cast_unknown, cast_unknown] at hright
    exact .kept hright
  · exact .overwritten htype hgiven.right hstored.right

end SettledOnRight

end Expr

/-! ## All positions -/

namespace Row

/-- The relation holds of the fields at every position that all three rows have. -/
def Pointwise (P : Expr → Expr → Expr → Prop) (a b c : Row) : Prop :=
  ∀ p ∈ a.fields.zip (b.fields.zip c.fields), P p.1 p.2.1 p.2.2

theorem pointwise_map_iff {α : Type} {P : Expr → Expr → Expr → Prop} {ps : List α}
    {a b c : α → Expr} :
    Pointwise P ⟨ps.map a⟩ ⟨ps.map b⟩ ⟨ps.map c⟩ ↔ ∀ p ∈ ps, P (a p) (b p) (c p) := by
  simp [Pointwise, List.zip_map']

end Row

namespace RowCompare

variable {op : Comparator} {l r : Row} {c : RowCompare}

/-- Another right row in a comparison against a comparison with it from the start: settled
    rows make no difference, and where the comparison can be built unsettled ones do. -/
theorem setOperand_right_eq (h : new op l r = .ok c) (x : Expr) :
    (Row.Pointwise Expr.SettledOnLeft l c.left (.ofExpr x) →
      c.setOperand 1 x = new op l (.ofExpr x)) ∧
    ∀ c', new op l (.ofExpr x) = .ok c' → c.setOperand 1 x = .ok c' →
      Row.Pointwise Expr.SettledOnLeft l c.left (.ofExpr x) := by
  have hset : c.setOperand 1 x = new op c.left (.ofExpr x) := by
    rw [setOperand, op_of_new h]
  rw [hset]
  by_cases hx : r.degree = (Row.ofExpr x).degree
  · obtain ⟨ps, rfl, rfl, hps⟩ := Row.exists_triples (degree_eq_of_new h) hx
    rw [hps]
    obtain ⟨-, rfl⟩ := new_map_eq_ok_iff.1 h
    rw [Row.pointwise_map_iff]
    constructor
    · intro hs
      exact new_map_congr (fun p hp => (hs p hp).meets_right) (fun p hp => (hs p hp).meets_left)
    · intro c' hnew hold p hp
      obtain ⟨hgiven, rfl⟩ := new_map_eq_ok_iff.1 hnew
      obtain ⟨hstored, heq⟩ := new_map_eq_ok_iff.1 hold
      simp only [mk.injEq, Row.mk.injEq, List.map_inj_left, true_and] at heq
      exact .of_eq (hgiven p hp) (hstored p hp) (heq.1 p hp).symm (heq.2 p hp).symm
  · have hx' : l.degree ≠ (Row.ofExpr x).degree := degree_eq_of_new h ▸ hx
    have hleft := degree_left_of_new h
    rw [new_of_degree_ne hx', new_of_degree_ne (hleft ▸ hx'), hleft]
    exact ⟨fun _ => rfl, fun c' hc' => by cases hc'⟩

/-- Another left row in a comparison against a comparison with it from the start: settled
    rows make no difference, and where the comparison can be built unsettled ones do. -/
theorem setOperand_left_eq (h : new op l r = .ok c) (x : Expr) :
    (Row.Pointwise Expr.SettledOnRight r c.right (.ofExpr x) →
      c.setOperand 0 x = new op (.ofExpr x) r) ∧
    ∀ c', new op (.ofExpr x) r = .ok c' → c.setOperand 0 x = .ok c' →
      Row.Pointwise Expr.SettledOnRight r c.right (.ofExpr x) := by
  have hset : c.setOperand 0 x = new op (.ofExpr x) c.right := by
    rw [setOperand, op_of_new h]
  rw [hset]
  by_cases hx : r.degree = (Row.ofExpr x).degree
  · obtain ⟨ps, rfl, rfl, hps⟩ := Row.exists_triples (degree_eq_of_new h) hx
    rw [hps]
    obtain ⟨-, rfl⟩ := new_map_eq_ok_iff.1 h
    rw [Row.pointwise_map_iff]
    constructor
    · intro hs
      exact new_map_congr (fun p hp => (hs p hp).meets_right) (fun p hp => (hs p hp).meets_left)
    · intro c' hnew hold p hp
      obtain ⟨hgiven, rfl⟩ := new_map_eq_ok_iff.1 hnew
      obtain ⟨hstored, heq⟩ := new_map_eq_ok_iff.1 hold
      simp only [mk.injEq, Row.mk.injEq, List.map_inj_left, true_and] at heq
      exact .of_eq (hgiven p hp) (hstored p hp) (heq.2 p hp).symm
  · have hx' : (Row.ofExpr x).degree ≠ r.degree := Ne.symm hx
    have hright := degree_right_of_new h
    rw [new_of_degree_ne hx', new_of_degree_ne (hright ▸ hx'), hright]
    exact ⟨fun _ => rfl, fun c' hc' => by cases hc'⟩

end RowCompare

end SqlExpr
