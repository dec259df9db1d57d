-- SUMMARY: Which rows can be compared, why others cannot, and what the rows are once they are compared.
import SqlExpr.Proofs.Expr.Obtainable

/-!
# Rows that can be compared

Rows of one degree can be compared unless a constant meets a field of a known type to which its own
type does not convert. The right row is checked first, so a clash of two constants is reported for
the right one, and the first position counts (`RowCompare.Mismatch`). The rows of a comparison agree
with each other, and compare again in either order as they are (`RowCompare.new_outcome`).
-/

namespace SqlExpr

/-! ## Clashes -/

namespace Expr

/-- The expression is a constant other than `NULL`, the type `t` is known, and the type of the
    constant does not convert to it. -/
def clashes (t : DataType) : Expr → Bool
  | .constant c => !c.value.isNull && !t.isUnknown && !c.dataType.convertsTo t
  | _ => false

theorem clashes_eq (t : DataType) (e : Expr) : e.clashes t = !e.takes t := by
  cases e with
  | constant c =>
    cases hnull : c.value.isNull <;> cases hknown : t.isUnknown <;>
      simp [clashes, takes, hnull, hknown]
  | _ => rfl

theorem clashes_eq_false_iff {t : DataType} {e : Expr} :
    e.clashes t = false ↔ e.takes t = true := by
  rw [clashes_eq, Bool.not_eq_false']

/-- A left field cannot clash with a constant that has met it, and anything else is as it was. -/
theorem clashes_metRight (a b : Expr) :
    a.clashes (metRight a b).dataType = (!b.isConstant && a.clashes b.dataType) := by
  cases hb : b.isConstant with
  | false => rw [metRight, cast_of_not_constant hb, Bool.not_false, Bool.true_and]
  | true =>
    rw [Bool.not_true, Bool.false_and, clashes_eq_false_iff]
    by_cases ha : a.dataType = .unknown
    · exact takes_of_dataType_unknown ha _
    · rw [metRight, dataType_cast hb ha]
      exact takes_dataType a

private theorem meets_iff {a b : Expr} : Meets a b ↔
    b.clashes a.dataType = false ∧ (b.isConstant = false → a.clashes b.dataType = false) := by
  have hleft : a.takes (metRight a b).dataType = true ↔
      (b.isConstant = false → a.clashes b.dataType = false) := by
    rw [← clashes_eq_false_iff, clashes_metRight]
    cases b.isConstant <;> simp
  exact ⟨fun h => ⟨clashes_eq_false_iff.2 h.right, hleft.1 h.left⟩,
    fun h => ⟨clashes_eq_false_iff.1 h.1, hleft.2 h.2⟩⟩

end Expr

namespace Row

/-- The error that reports a field of the side `operand` that clashes with the field `model`. -/
def clash (operand : Nat) (field model : Expr) : BuildError :=
  .typeConformance .rowComparison operand (.ofFamily model.dataType.family) field.dataType

theorem conformField_eq (operand : Nat) (field model : Expr) :
    conformField operand field model =
      if field.clashes model.dataType then .error (clash operand field model)
      else .ok (field.cast model.dataType) := by
  rw [conformField, Expr.conformed_eq, Expr.clashes_eq]
  cases field.takes model.dataType <;> rfl

section Positions

variable {α : Type} {ps : List α} {field model : α → Expr} {operand : Nat}

/-- The first field that clashes is reported. -/
theorem conformFields_map_eq_error_iff {err : BuildError} :
    conformFields operand (ps.map field) (ps.map model) = .error err ↔
      ∃ p, ps.find? (fun p => (field p).clashes (model p).dataType) = some p ∧
        err = clash operand (field p) (model p) := by
  induction ps with
  | nil => simp [conformFields]
  | cons p ps ih =>
    rw [List.map_cons, List.map_cons, conformFields_cons, conformField_eq]
    cases hp : (field p).clashes (model p).dataType with
    | true =>
      simp only [List.find?_cons, hp]
      simp [bind, Except.bind, eq_comm]
    | false =>
      simp only [List.find?_cons, hp, ← ih]
      cases conformFields operand (ps.map field) (ps.map model) <;>
        simp [bind, Except.bind, pure, Except.pure]

end Positions

@[simp] theorem zip_sides (ps : List (Expr × Expr)) :
    (ps.map fun p => p.1).zip (ps.map fun p => p.2) = ps := by
  rw [List.zip_map', List.map_id'']
  exact fun _ => rfl

end Row

/-! ## The outcome of a comparison -/

namespace RowCompare

variable {op : Comparator} {l r : Row} {c : RowCompare} {err : BuildError}

/-- Why two rows cannot be compared. -/
inductive Mismatch (l r : Row) : BuildError → Prop
  /-- They are of different degree. -/
  | degree (h : l.degree ≠ r.degree) : Mismatch l r (.arityMismatch l.degree r.degree)
  /-- A constant on the right clashes with the field on the left; `a` and `b` are the first such
      fields. -/
  | right {a b : Expr} (hdegree : l.degree = r.degree)
    (hfirst : (l.fields.zip r.fields).find? (fun (a, b) => b.clashes a.dataType) = some (a, b)) :
    Mismatch l r (.typeConformance .rowComparison 1 (.ofFamily a.dataType.family) b.dataType)
  /-- That is not so, but a constant on the left clashes with a field on the right that is no
      constant; `a` and `b` are the first such fields. -/
  | left {a b : Expr} (hdegree : l.degree = r.degree)
    (hright : ∀ p ∈ l.fields.zip r.fields, p.2.clashes p.1.dataType = false)
    (hfirst : (l.fields.zip r.fields).find? (fun (a, b) => !b.isConstant && a.clashes b.dataType) =
      some (a, b)) :
    Mismatch l r (.typeConformance .rowComparison 0 (.ofFamily b.dataType.family) a.dataType)

/-- The comparison `c` holds the fields of `l` and `r`, in which only types of constants are
    changed, and they agree: compared again, in either order, they stay as they are. -/
structure Conforms (op : Comparator) (l r : Row) (c : RowCompare) : Prop where
  op : c.op = op
  degree_left : c.left.degree = l.degree
  degree_right : c.right.degree = r.degree
  left : List.Forall₂ Expr.SameButType l.fields c.left.fields
  right : List.Forall₂ Expr.SameButType r.fields c.right.fields
  agree : ∀ p ∈ c.left.fields.zip c.right.fields, p.1.Agree p.2
  again (op' : Comparator) : new op' c.left c.right = .ok ⟨op', c.left, c.right⟩
  exchanged (op' : Comparator) : new op' c.right c.left = .ok ⟨op', c.right, c.left⟩

section Positions

variable {α : Type} {ps : List α} {left right : α → Expr}

/-- Beside what became of the right row, only a left field beside no constant can clash. -/
private theorem conformFields_metRight_eq_error_iff :
    Row.conformFields 0 (ps.map left) (ps.map fun p => (left p).metRight (right p)) = .error err ↔
      ∃ p, ps.find? (fun p => !(right p).isConstant && (left p).clashes (right p).dataType) =
        some p ∧ err = Row.clash 0 (left p) (right p) := by
  rw [Row.conformFields_map_eq_error_iff]
  simp only [Expr.clashes_metRight]
  refine exists_congr fun p => and_congr_right fun hp => ?_
  have hright : (right p).isConstant = false := by
    have hfound := List.find?_some hp
    simp only [Bool.and_eq_true, Bool.not_eq_true'] at hfound
    exact hfound.1
  rw [Expr.metRight, Expr.cast_of_not_constant hright]

/-- The right row is checked first, then the left one against what became of the right one. -/
private theorem new_map_eq_error_iff :
    new op ⟨ps.map left⟩ ⟨ps.map right⟩ = .error err ↔
      (∃ p, ps.find? (fun p => (right p).clashes (left p).dataType) = some p ∧
        err = Row.clash 1 (right p) (left p)) ∨
      (∀ p ∈ ps, (right p).clashes (left p).dataType = false) ∧
        ∃ p, ps.find? (fun p => !(right p).isConstant && (left p).clashes (right p).dataType) =
          some p ∧ err = Row.clash 0 (left p) (right p) := by
  have hpasses : new op ⟨ps.map left⟩ ⟨ps.map right⟩ = .error err ↔
      Row.conformFields 1 (ps.map right) (ps.map left) = .error err ∨
        ∃ rs, Row.conformFields 1 (ps.map right) (ps.map left) = .ok rs ∧
          Row.conformFields 0 (ps.map left) rs = .error err := by
    simp [new, Row.degree, Row.conformTo, Except.bind_eq_error_iff, Except.map_eq_error_iff]
  rw [hpasses, Row.conformFields_map_eq_error_iff]
  -- the second pass only counts if the first one found no clash
  refine or_congr_right ?_
  simp only [Row.conformFields_map_eq_ok_iff, ← Expr.clashes_eq_false_iff]
  constructor
  · rintro ⟨_, ⟨hright, rfl⟩, hleft⟩
    exact ⟨hright, conformFields_metRight_eq_error_iff.1 hleft⟩
  · rintro ⟨hright, hleft⟩
    exact ⟨_, ⟨hright, rfl⟩, conformFields_metRight_eq_error_iff.2 hleft⟩

end Positions

theorem new_eq_error_iff : new op l r = .error err ↔ Mismatch l r err := by
  by_cases hdegree : l.degree = r.degree
  case neg =>
    rw [new_of_degree_ne hdegree]
    constructor
    · rintro ⟨⟩
      exact .degree hdegree
    · rintro (_ | hequal | hequal)
      · rfl
      · exact absurd hequal hdegree
      · exact absurd hequal hdegree
  case pos =>
    obtain ⟨ps, rfl, rfl⟩ := Row.exists_pairs hdegree
    rw [new_map_eq_error_iff]
    constructor
    · rintro (⟨p, hp, rfl⟩ | ⟨hright, p, hp, rfl⟩)
      · exact .right hdegree (by rwa [Row.zip_sides])
      · exact .left hdegree (by rwa [Row.zip_sides]) (by rwa [Row.zip_sides])
    · rintro (hne | ⟨-, hp⟩ | ⟨-, hright, hp⟩)
      · exact absurd hdegree hne
      · rw [Row.zip_sides] at hp
        exact .inl ⟨_, hp, rfl⟩
      · rw [Row.zip_sides] at hright hp
        exact .inr ⟨hright, _, hp, rfl⟩

private theorem exists_new_iff : (∃ c, new op l r = .ok c) ↔
    l.degree = r.degree ∧ ∀ p ∈ l.fields.zip r.fields, p.2.clashes p.1.dataType = false ∧
      (p.2.isConstant = false → p.1.clashes p.2.dataType = false) := by
  by_cases hdegree : l.degree = r.degree
  case neg => simp [new_of_degree_ne hdegree, hdegree]
  case pos =>
    obtain ⟨ps, rfl, rfl⟩ := Row.exists_pairs hdegree
    simp only [new_map_eq_ok_iff, Row.zip_sides, Expr.meets_iff]
    exact ⟨fun ⟨_, hmeets, _⟩ => ⟨hdegree, hmeets⟩, fun ⟨_, hmeets⟩ => ⟨_, hmeets, rfl⟩⟩

private theorem conforms_of_new (h : new op l r = .ok c) : Conforms op l r c := by
  obtain ⟨hleft, hright⟩ := sameButType_of_new h
  have hop := op_of_new h
  have hdegreeLeft := degree_left_of_new h
  have hdegreeRight := degree_right_of_new h
  obtain ⟨ps, rfl, rfl⟩ := Row.exists_pairs (degree_eq_of_new h)
  obtain ⟨-, rfl⟩ := new_map_eq_ok_iff.1 h
  exact {
    op := hop
    degree_left := hdegreeLeft
    degree_right := hdegreeRight
    left := hleft
    right := hright
    agree := by
      rw [List.zip_map', List.forall_mem_map]
      exact fun p _ => Expr.agree_met p.1 p.2
    again := fun _ => new_of_agree fun p _ => Expr.agree_met p.1 p.2
    exchanged := fun _ => new_of_agree fun p _ => (Expr.agree_met p.1 p.2).symm }

/-- Two rows are compared unless they do not match, which is reported as `Mismatch` says; the
    comparison conforms its rows to each other, and rows that can be obtained have a field. -/
theorem new_outcome (op : Comparator) (l r : Row) :
    (∀ err, new op l r = .error err ↔ Mismatch l r err) ∧
    ((∃ c, new op l r = .ok c) ↔ l.degree = r.degree ∧
      ∀ p ∈ l.fields.zip r.fields, p.2.clashes p.1.dataType = false ∧
        (p.2.isConstant = false → p.1.clashes p.2.dataType = false)) ∧
    ∀ c, new op l r = .ok c →
      Conforms op l r c ∧ (l.toExpr.Obtainable → 1 ≤ c.degree) := by
  refine ⟨fun err => new_eq_error_iff, exists_new_iff, fun c hc => ⟨conforms_of_new hc, ?_⟩⟩
  intro hl
  have hfield : l.fields ≠ [] := hl.everywhere_sound.self.hasField
  rw [degree, degree_left_of_new hc]
  exact List.length_pos_iff.2 hfield

/-- A number takes the type of a column, a `NULL` that of the number opposite, and a text stays
    beside a column of unknown type. A text in place of the first number is rejected. -/
theorem new_outcome_of_constants :
    let id : Expr := .column ⟨none, "id", .smallint⟩
    let note : Expr := .column ⟨none, "note", .unknown⟩
    let l : Row := ⟨[id, .null .unknown, .bind (.text "x")]⟩
    let r : Row := ⟨[.literal (.int 3), .bind (.int 5), note]⟩
    let c : RowCompare := ⟨.lt, ⟨[id, .null .bigint, .bind (.text "x")]⟩,
      ⟨[.constant ⟨.int 3, .smallint, true⟩, .bind (.int 5), note]⟩⟩
    let texts : Row := ⟨[.bind (.text "a"), .bind (.int 5), note]⟩
    new .lt l r = .ok c ∧ l.toExpr.Obtainable ∧ Conforms .lt l r c ∧ 1 ≤ c.degree ∧
      new .lt l texts =
        .error (.typeConformance .rowComparison 1 (.ofFamily .numeric) (.varchar none)) := by
  intro id note l r c texts
  have hnew : new .lt l r = .ok c := rfl
  have hl : l.toExpr.Obtainable := by
    refine .row (fun a ha => ?_) (rfl : Row.new l.fields = .ok l)
    simp only [l, List.mem_cons, List.not_mem_nil, or_false] at ha
    rcases ha with rfl | rfl | rfl
    · exact .column _
    · exact .null _
    · exact .bind _
  have hclash : Mismatch l texts
      (.typeConformance .rowComparison 1 (.ofFamily .numeric) (.varchar none)) :=
    .right (a := id) (b := .bind (.text "a")) rfl rfl
  obtain ⟨hconforms, hdegree⟩ := (new_outcome .lt l r).2.2 c hnew
  exact ⟨hnew, hl, hconforms, hdegree hl, ((new_outcome .lt l texts).1 _).2 hclash⟩

end RowCompare

end SqlExpr
