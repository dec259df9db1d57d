-- SUMMARY: When fields conform to each other, and what a row comparison is once it is built.
import SqlExpr.Row.Basic

/-!
# Conformance of rows

A field that takes a type is cast to it (`Expr.conformed_eq`). Building a comparison conforms
the right row to the left one and then the left row to the right one
(`RowCompare.new_map_eq_ok_iff`); doing so again changes nothing (`RowCompare.new_again`).
-/

namespace SqlExpr

/-! ## Single fields -/

namespace Expr

def isConstant : Expr → Bool
  | .constant _ => true
  | _ => false

/-- The expression can be compared with a field of type `t`. -/
def takes (t : DataType) : Expr → Bool
  | .constant c => t.isUnknown || c.value.isNull || c.dataType.convertsTo t
  | _ => true

/-- A constant with the type `t` in place of its own, unless `t` is unknown. -/
def cast (t : DataType) : Expr → Expr
  | .constant c => .constant (if t.isUnknown then c else { c with dataType := t })
  | e => e

theorem conformed_eq (t : DataType) (e : Expr) :
    e.conformed t = if e.takes t then .ok (e.cast t) else .error e.dataType := by
  cases e with
  | constant c =>
    cases ht : t.isUnknown <;> simp [conformed, takes, cast, ht, dataType]
  | _ => rfl

theorem conformed_eq_ok_iff {t : DataType} {e e' : Expr} :
    e.conformed t = .ok e' ↔ e.takes t = true ∧ e.cast t = e' := by
  rw [conformed_eq]
  split <;> simp_all

@[simp] theorem takes_unknown (e : Expr) : e.takes .unknown = true := by
  cases e <;> rfl

@[simp] theorem takes_dataType (e : Expr) : e.takes e.dataType = true := by
  cases e <;> simp [takes, dataType]

theorem takes_of_not_constant {e : Expr} (h : e.isConstant = false) (t : DataType) :
    e.takes t = true := by
  cases e with
  | constant c => cases h
  | _ => rfl

theorem takes_of_dataType_unknown {e : Expr} (h : e.dataType = .unknown) (t : DataType) :
    e.takes t = true := by
  cases e with
  | constant c =>
    have hc : c.dataType = .unknown := h
    simp [takes, hc]
  | _ => rfl

@[simp] theorem cast_unknown (e : Expr) : e.cast .unknown = e := by
  cases e <;> rfl

theorem cast_of_dataType {e : Expr} {t : DataType} (h : e.dataType = t) : e.cast t = e := by
  subst h
  cases e <;> simp [cast, dataType]

theorem cast_of_not_constant {e : Expr} (h : e.isConstant = false) (t : DataType) :
    e.cast t = e := by
  cases e with
  | constant c => cases h
  | _ => rfl

theorem cast_cast {t u : DataType} (h : u ≠ .unknown) (e : Expr) :
    (e.cast t).cast u = e.cast u := by
  cases e with
  | constant c =>
    cases ht : t.isUnknown <;> simp [cast, h, ht]
  | _ => rfl

theorem dataType_cast {e : Expr} {t : DataType} (he : e.isConstant = true) (ht : t ≠ .unknown) :
    (e.cast t).dataType = t := by
  cases e with
  | constant c => simp [cast, ht, dataType]
  | _ => cases he

theorem cast_eq_or (e : Expr) (t : DataType) :
    e.cast t = e ∨ (e.isConstant = true ∧ t ≠ .unknown ∧ (e.cast t).dataType = t) := by
  cases he : e.isConstant with
  | true =>
    by_cases ht : t = .unknown
    · subst ht
      exact .inl (cast_unknown e)
    · exact .inr ⟨rfl, ht, dataType_cast he ht⟩
  | false => exact .inl (cast_of_not_constant he t)

@[simp] theorem cast_idem (e : Expr) (t : DataType) : (e.cast t).cast t = e.cast t := by
  rcases cast_eq_or e t with h | ⟨-, -, h⟩
  · rw [h, h]
  · exact cast_of_dataType h

private theorem takes_cast {e : Expr} {t : DataType} (he : e.takes t = true) :
    (e.cast t).takes t = true := by
  rcases cast_eq_or e t with h | ⟨-, -, h⟩
  · rwa [h]
  · have := takes_dataType (e.cast t)
    rwa [h] at this

/-! ### Two fields that meet -/

/-- What becomes of the right field `b` beside the left field `a`. -/
def metRight (a b : Expr) : Expr := b.cast a.dataType

/-- What becomes of the left field `a` once the right field `b` has met it. -/
def metLeft (a b : Expr) : Expr := a.cast (metRight a b).dataType

/-- The right field takes the type of the left one, and the left one the type that results. -/
structure Meets (a b : Expr) : Prop where
  right : b.takes a.dataType = true
  left : a.takes (metRight a b).dataType = true

/-- The right field meets what became of the left one as it met the left one itself. -/
theorem Meets.metLeft_left {a b : Expr} (h : Meets a b) :
    Meets (metLeft a b) b ∧ metRight (metLeft a b) b = metRight a b ∧
      metLeft (metLeft a b) b = metLeft a b := by
  have hright : b.takes (metLeft a b).dataType = true ∧
      metRight (metLeft a b) b = metRight a b := by
    rcases cast_eq_or a (metRight a b).dataType with ha | ⟨-, -, ha⟩
    · rw [metLeft, ha]
      exact ⟨h.right, rfl⟩
    · rw [metRight, metLeft, ha, metRight]
      rcases cast_eq_or b a.dataType with hb | ⟨-, -, hb⟩
      · rw [hb]
        exact ⟨takes_dataType b, cast_of_dataType rfl⟩
      · rw [hb]
        exact ⟨h.right, rfl⟩
  refine ⟨⟨hright.1, ?_⟩, hright.2, ?_⟩
  · rw [hright.2]
    exact takes_cast h.left
  · rw [metLeft, hright.2]
    exact cast_idem a _

/-- The field `e` stays as it is beside a field of type `t`, whatever else may meet there. -/
private theorem takes_of_settled {e : Expr} {t : DataType}
    (h : e.isConstant = true → t = e.dataType ∨ t = .unknown) :
    e.takes t = true ∧ e.cast t = e := by
  cases he : e.isConstant with
  | true =>
    rcases h he with rfl | rfl
    · exact ⟨takes_dataType e, cast_of_dataType rfl⟩
    · exact ⟨takes_unknown e, cast_unknown e⟩
  | false => exact ⟨takes_of_not_constant he t, cast_of_not_constant he t⟩

/-- A constant stands beside a field of its type, or beside one of unknown type that is no
    constant. -/
structure Agree (a b : Expr) : Prop where
  left : a.isConstant = true →
    a.dataType = b.dataType ∨ (b.isConstant = false ∧ b.dataType = .unknown)
  right : b.isConstant = true →
    a.dataType = b.dataType ∨ (a.isConstant = false ∧ a.dataType = .unknown)

namespace Agree

variable {a b : Expr}

theorem symm (h : Agree a b) : Agree b a where
  left hb := (h.right hb).imp_left Eq.symm
  right ha := (h.left ha).imp_left Eq.symm

theorem metRight_eq (h : Agree a b) : b.takes a.dataType = true ∧ metRight a b = b :=
  takes_of_settled fun hb => (h.right hb).imp_right And.right

/-- Fields that agree meet without any change. -/
theorem meets (h : Agree a b) : Meets a b ∧ metLeft a b = a := by
  obtain ⟨hright, hb⟩ := h.metRight_eq
  obtain ⟨hleft, ha⟩ := h.symm.metRight_eq
  rw [metLeft, hb]
  exact ⟨⟨hright, hb.symm ▸ hleft⟩, ha⟩

end Agree

@[simp] theorem isConstant_cast (e : Expr) (t : DataType) :
    (e.cast t).isConstant = e.isConstant := by
  cases e <;> rfl

/-- Two constants have one type once each has met the other. -/
private theorem dataType_metLeft {a b : Expr} (ha : a.isConstant = true)
    (hb : b.isConstant = true) : (metLeft a b).dataType = (metRight a b).dataType := by
  by_cases ht : (metRight a b).dataType = .unknown
  · by_cases htype : a.dataType = .unknown
    · rw [metLeft, ht, cast_unknown, htype]
    · exact absurd ((dataType_cast hb htype).symm.trans ht) htype
  · exact dataType_cast ha ht

/-- Two fields agree once each has met the other. -/
theorem agree_met (a b : Expr) : Agree (metLeft a b) (metRight a b) := by
  have hleft : (metLeft a b).isConstant = a.isConstant := isConstant_cast a _
  have hright : (metRight a b).isConstant = b.isConstant := isConstant_cast b _
  -- only constants take a type, so what was taken depends on which of the two are constants
  cases ha : a.isConstant <;> cases hb : b.isConstant <;> rw [ha] at hleft <;> rw [hb] at hright
  case false.false => exact ⟨by simp [hleft], by simp [hright]⟩
  case true.true =>
    have htypes := dataType_metLeft ha hb
    exact ⟨fun _ => .inl htypes, fun _ => .inl htypes⟩
  case true.false =>
    refine ⟨fun _ => ?_, by simp [hright]⟩
    by_cases ht : (metRight a b).dataType = .unknown
    · exact .inr ⟨hright, ht⟩
    · exact .inl (dataType_cast ha ht)
  case false.true =>
    refine ⟨by simp [hleft], fun _ => ?_⟩
    rw [metLeft, cast_of_not_constant ha]
    by_cases ht : a.dataType = .unknown
    · exact .inr ⟨ha, ht⟩
    · exact .inl (dataType_cast hb ht).symm

end Expr

/-! ## Rows of fields -/

namespace Row

/-- Conform a field to the field at the same position of the other row. -/
def conformField (operand : Nat) (field model : Expr) : Except BuildError Expr :=
  (field.conformed model.dataType).mapError
    (.typeConformance .rowComparison operand (.ofFamily model.dataType.family))

theorem conformField_eq_ok_iff {operand : Nat} {field model e : Expr} :
    conformField operand field model = .ok e ↔
      field.takes model.dataType = true ∧ field.cast model.dataType = e := by
  rw [conformField, Except.mapError_eq_ok_iff, Expr.conformed_eq_ok_iff]

theorem conformField_of_takes {operand : Nat} {field model : Expr}
    (h : field.takes model.dataType = true) :
    conformField operand field model = .ok (field.cast model.dataType) :=
  conformField_eq_ok_iff.2 ⟨h, rfl⟩

theorem conformFields_cons (operand : Nat) (field model : Expr) (fields models : List Expr) :
    conformFields operand (field :: fields) (model :: models) = do
      let e ← conformField operand field model
      let es ← conformFields operand fields models
      return e :: es := rfl

private theorem conformFields_cons_eq_ok_iff {operand : Nat} {field model : Expr}
    {fields models es : List Expr} :
    conformFields operand (field :: fields) (model :: models) = .ok es ↔
      ∃ e es', conformField operand field model = .ok e ∧
        conformFields operand fields models = .ok es' ∧ es = e :: es' := by
  simp only [conformFields_cons, Except.bind_eq_ok_iff, pure, Except.pure, Except.ok.injEq]
  grind

/-! Rows of one degree are lists read off one list of positions. -/

/-- Two rows of one degree as the sides of a list of pairs. -/
theorem exists_pairs {a b : Row} (h : a.degree = b.degree) :
    ∃ ps : List (Expr × Expr), a = ⟨ps.map (·.1)⟩ ∧ b = ⟨ps.map (·.2)⟩ :=
  ⟨a.fields.zip b.fields, by rw [List.map_fst_zip (Nat.le_of_eq h)],
    by rw [List.map_snd_zip (Nat.le_of_eq h.symm)]⟩

/-- Three rows of one degree as the sides of a list of triples. -/
theorem exists_triples {a b c : Row} (hab : a.degree = b.degree) (hbc : b.degree = c.degree) :
    ∃ ps : List (Expr × Expr × Expr),
      a = ⟨ps.map (·.1)⟩ ∧ b = ⟨ps.map (·.2.1)⟩ ∧ c = ⟨ps.map (·.2.2)⟩ := by
  obtain ⟨qs, rfl, rfl⟩ := exists_pairs hbc
  have hlen : a.fields.length = qs.length := by simpa [degree] using hab
  have hqs : (a.fields.zip qs).map (·.2) = qs := List.map_snd_zip (Nat.le_of_eq hlen.symm)
  refine ⟨a.fields.zip qs, by rw [List.map_fst_zip (Nat.le_of_eq hlen)], ?_, ?_⟩ <;>
    conv => lhs; rw [← hqs, List.map_map]
  all_goals rfl

section Positions

variable {α : Type} {ps : List α} {field model field' model' : α → Expr} {operand : Nat}

theorem conformFields_map_eq_ok_iff {es : List Expr} :
    conformFields operand (ps.map field) (ps.map model) = .ok es ↔
      (∀ p ∈ ps, (field p).takes (model p).dataType = true) ∧
        es = ps.map fun p => (field p).cast (model p).dataType := by
  induction ps generalizing es with
  | nil => cases es <;> simp [conformFields]
  | cons p ps ih =>
    simp only [List.map_cons, conformFields_cons_eq_ok_iff, conformField_eq_ok_iff, ih]
    constructor
    · rintro ⟨e, es', ⟨hp, rfl⟩, ⟨hps, rfl⟩, rfl⟩
      exact ⟨List.forall_mem_cons.2 ⟨hp, hps⟩, rfl⟩
    · rintro ⟨h, rfl⟩
      obtain ⟨hp, hps⟩ := List.forall_mem_cons.1 h
      exact ⟨_, _, ⟨hp, rfl⟩, ⟨hps, rfl⟩, rfl⟩

/-- Fields that fare alike at every position fare alike as rows, errors included. -/
theorem conformFields_congr
    (h : ∀ p ∈ ps, conformField operand (field p) (model p) =
      conformField operand (field' p) (model' p)) :
    conformFields operand (ps.map field) (ps.map model) =
      conformFields operand (ps.map field') (ps.map model') := by
  induction ps with
  | nil => rfl
  | cons p ps ih =>
    obtain ⟨hp, hps⟩ := List.forall_mem_cons.1 h
    simp only [List.map_cons, conformFields_cons, hp, ih hps]

end Positions

end Row

/-! ## Comparisons -/

namespace RowCompare

variable {op : Comparator} {l r : Row} {c : RowCompare}

theorem new_of_degree_ne (h : l.degree ≠ r.degree) :
    new op l r = .error (.arityMismatch l.degree r.degree) :=
  if_neg h

theorem degree_eq_of_new (h : new op l r = .ok c) : l.degree = r.degree := by
  by_cases hlr : l.degree = r.degree
  · exact hlr
  · rw [new_of_degree_ne hlr] at h
    cases h

section Positions

variable {α : Type} {ps : List α} {left right : α → Expr}

/-- Pairs of fields that fare alike at every position fare alike as comparisons, errors
    included. -/
theorem new_map_congr {left' right' : α → Expr}
    (hright : ∀ p ∈ ps, Row.conformField 1 (right p) (left p) =
      Row.conformField 1 (right' p) (left' p))
    (hleft : ∀ p ∈ ps, Row.conformField 0 (left p) ((left p).metRight (right p)) =
      Row.conformField 0 (left' p) ((left' p).metRight (right' p))) :
    new op ⟨ps.map left⟩ ⟨ps.map right⟩ = new op ⟨ps.map left'⟩ ⟨ps.map right'⟩ := by
  have hrights := Row.conformFields_congr hright
  have hlefts := Row.conformFields_congr hleft
  simp only [new, Row.degree, List.length_map, if_pos, Row.conformTo]
  rw [← hrights]
  cases hr : Row.conformFields 1 (ps.map right) (ps.map left) with
  | error err => rfl
  | ok rs =>
    have hrs := (Row.conformFields_map_eq_ok_iff.1 hr).2
    have hrs' := (Row.conformFields_map_eq_ok_iff.1 (hrights.symm.trans hr)).2
    simp only [Expr.metRight] at hlefts
    rw [← hrs, ← hrs'] at hlefts
    change (do
      let l ← Row.mk <$> Row.conformFields 0 (ps.map left) rs
      Except.ok (RowCompare.mk op l ⟨rs⟩)) = do
      let l ← Row.mk <$> Row.conformFields 0 (ps.map left') rs
      Except.ok (RowCompare.mk op l ⟨rs⟩)
    rw [hlefts]

/-- A comparison is built if the fields meet at every position, and out of what becomes of
    them. -/
theorem new_map_eq_ok_iff :
    new op ⟨ps.map left⟩ ⟨ps.map right⟩ = .ok c ↔
      (∀ p ∈ ps, (left p).Meets (right p)) ∧
        c = ⟨op, ⟨ps.map fun p => (left p).metLeft (right p)⟩,
          ⟨ps.map fun p => (left p).metRight (right p)⟩⟩ := by
  simp only [new, Row.degree, List.length_map, if_pos, Row.conformTo, Except.bind_eq_ok_iff,
    Except.map_eq_ok_iff, Row.conformFields_map_eq_ok_iff]
  constructor
  · rintro ⟨r, ⟨rs, ⟨hright, rfl⟩, rfl⟩, l, ⟨ls, hls, rfl⟩, hc⟩
    obtain ⟨hleft, rfl⟩ := Row.conformFields_map_eq_ok_iff.1 hls
    cases hc
    exact ⟨fun p hp => ⟨hright p hp, hleft p hp⟩, rfl⟩
  · rintro ⟨h, rfl⟩
    exact ⟨_, ⟨_, ⟨fun p hp => (h p hp).right, rfl⟩, rfl⟩, _,
      ⟨_, Row.conformFields_map_eq_ok_iff.2 ⟨fun p hp => (h p hp).left, rfl⟩, rfl⟩, rfl⟩

end Positions

/-- What became of the left row makes the same comparison with the right row. -/
theorem new_left_again (h : new op l r = .ok c) :
    new op c.left r = .ok c := by
  obtain ⟨ps, rfl, rfl⟩ := Row.exists_pairs (degree_eq_of_new h)
  obtain ⟨hmeets, rfl⟩ := new_map_eq_ok_iff.1 h
  refine new_map_eq_ok_iff.2 ⟨fun p hp => (hmeets p hp).metLeft_left.1, ?_⟩
  congr 2
  · exact List.map_congr_left fun p hp => (hmeets p hp).metLeft_left.2.2.symm
  · exact List.map_congr_left fun p hp => (hmeets p hp).metLeft_left.2.1.symm

/-- Rows of fields that agree are compared as they are. -/
theorem new_of_agree {α : Type} {ps : List α} {left right : α → Expr}
    (h : ∀ p ∈ ps, (left p).Agree (right p)) :
    new op ⟨ps.map left⟩ ⟨ps.map right⟩ = .ok ⟨op, ⟨ps.map left⟩, ⟨ps.map right⟩⟩ := by
  refine new_map_eq_ok_iff.2 ⟨fun p hp => (h p hp).meets.1, ?_⟩
  congr 2
  · exact List.map_congr_left fun p hp => (h p hp).meets.2.symm
  · exact List.map_congr_left fun p hp => (h p hp).metRight_eq.2.symm

/-- The rows of a comparison make the same comparison again. -/
theorem new_again (h : new op l r = .ok c) :
    new op c.left c.right = .ok c := by
  obtain ⟨ps, rfl, rfl⟩ := Row.exists_pairs (degree_eq_of_new h)
  obtain ⟨-, rfl⟩ := new_map_eq_ok_iff.1 h
  exact new_of_agree fun p _ => Expr.agree_met p.1 p.2

theorem degree_left_of_new (h : new op l r = .ok c) : c.left.degree = l.degree := by
  obtain ⟨ps, rfl, rfl⟩ := Row.exists_pairs (degree_eq_of_new h)
  obtain ⟨-, rfl⟩ := new_map_eq_ok_iff.1 h
  simp [Row.degree]

theorem degree_right_of_new (h : new op l r = .ok c) : c.right.degree = r.degree := by
  rw [← degree_eq_of_new h, ← degree_left_of_new h]
  exact (degree_eq_of_new (new_again h)).symm

theorem fields_left_ne_nil_of_new (h : new op l r = .ok c) (hne : l.fields ≠ []) :
    c.left.fields ≠ [] := by
  have hpos : 0 < l.degree := List.length_pos_iff.2 hne
  rw [← degree_left_of_new h] at hpos
  exact List.length_pos_iff.1 hpos

theorem op_of_new (h : new op l r = .ok c) : c.op = op := by
  obtain ⟨ps, rfl, rfl⟩ := Row.exists_pairs (degree_eq_of_new h)
  obtain ⟨-, rfl⟩ := new_map_eq_ok_iff.1 h
  rfl

end RowCompare

end SqlExpr
