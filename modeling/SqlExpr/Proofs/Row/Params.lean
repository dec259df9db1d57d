-- SUMMARY: The parameters of row orderings that are written as comparisons of their fields.
import SqlExpr.Proofs.Render.Params
import SqlExpr.Proofs.Row.Nesting

/-!
# Parameters of row orderings

The decision for an ordering compares the fields at each position twice, those at the last position
once. The comparison in front of it reads the first fields a third time. What a field binds is bound
again wherever it is written, in the order of the text (`RowCompare.params_ordering`).
-/

namespace SqlExpr

namespace Expr

private theorem boundValues_compare (op : Comparator) (l r : Expr) :
    (Expr.compare op l r).boundValues = l.boundValues ++ r.boundValues := by
  simp [boundValues_eq (.compare op l r), constant?, operands, slots]

private theorem boundValues_logical (op : Connective) (a b : Expr) :
    (Expr.logical op a b).boundValues = a.boundValues ++ b.boundValues := by
  simp [boundValues_eq (.logical op a b), constant?, operands, slots]

end Expr

namespace RowCompare

variable {d : Dialect} {s : Settings} {op : Comparator} {l r : Expr} {left right : List Expr}

/-! ## What the fields bind -/

/-- What two fields bind, the left one first. -/
def pairValues (d : Dialect) (l r : Expr) : List Value :=
  (l.lower d).boundValues ++ (r.lower d).boundValues

/-- What the fields at each position bind. -/
def fieldValues (d : Dialect) (left right : List Expr) : List (List Value) :=
  left.zipWith (pairValues d) right

theorem fieldValues_cons (d : Dialect) (l r : Expr) (left right : List Expr) :
    fieldValues d (l :: left) (r :: right) = pairValues d l r :: fieldValues d left right := rfl

/-- A comparison of two fields binds what they bind, whatever the comparator. -/
theorem boundValues_lower_compare (d : Dialect) (op : Comparator) (l r : Expr) :
    ((Expr.compare op l r).lower d).boundValues = pairValues d l r := by
  rw [Expr.lower_compare, Expr.boundValues_compare, pairValues]

theorem boundValues_lower_logical (d : Dialect) (op : Connective) (a b : Expr) :
    ((Expr.logical op a b).lower d).boundValues =
      (a.lower d).boundValues ++ (b.lower d).boundValues := by
  rw [Expr.lower_logical, Expr.boundValues_logical]

/-- The decision reads the fields at each position twice and the last ones once. -/
private theorem boundValues_lexicographic {tree : Expr}
    (h : lexicographic op left right = some tree) :
    ∃ init last, fieldValues d left right = init ++ [last] ∧
      (tree.lower d).boundValues = (init.flatMap fun p => p ++ p) ++ last := by
  fun_induction lexicographic op left right generalizing tree with
  | case1 l r =>
    cases h
    exact ⟨[], _, rfl, boundValues_lower_compare d op l r⟩
  | case2 l left r right hne ih =>
    simp only [Option.bind_eq_bind, Option.bind_eq_some_iff, Option.pure_def,
      Option.some.injEq] at h
    obtain ⟨rest, hrest, rfl⟩ := h
    obtain ⟨init, last, hvalues, hbound⟩ := ih hrest
    refine ⟨pairValues d l r :: init, last, ?_, ?_⟩
    · rw [fieldValues_cons, hvalues, List.cons_append]
    · rw [Expr.or, Expr.and, boundValues_lower_logical, boundValues_lower_logical,
        boundValues_lower_compare, boundValues_lower_compare, hbound, List.flatMap_cons]
      simp only [List.append_assoc]
  | case3 => cases h

/-- An ordering of scalars reads each of them once. -/
private theorem boundValues_ordering_singleton (hd : d.support .rowOrdering = .emulated)
    (hop : op.isOrdering = true) (hlength : left.length = right.length) {p : List Value}
    (hvalues : fieldValues d left right = [p]) :
    ((Expr.rowCompare op left right).lower d).boundValues = p := by
  have hone : left.length = 1 := by simpa [fieldValues, hlength] using congrArg List.length hvalues
  obtain ⟨l, rfl⟩ := List.length_eq_one_iff.1 hone
  obtain ⟨r, rfl⟩ := List.length_eq_one_iff.1 (hlength.symm.trans hone)
  rw [Expr.lower_of_rewrite (rewrite_rowCompare_singleton hd hop l r), boundValues_lower_compare]
  exact List.singleton_inj.1 hvalues

/-- The leading predicate reads the first fields once more. -/
private theorem boundValues_ordering (hd : d.support .rowOrdering = .emulated)
    (hop : op.isOrdering = true)
    (hlength : left.length = right.length) {first last : List Value} {middle : List (List Value)}
    (hvalues : fieldValues d left right = first :: (middle ++ [last])) :
    ((Expr.rowCompare op left right).lower d).boundValues =
      first ++ first ++ first ++ (middle.flatMap fun p => p ++ p) ++ last := by
  match left, right, hlength with
  | l :: left, r :: right, hlength =>
    obtain ⟨hfirst, hrest⟩ := List.cons_eq_cons.1 (fieldValues_cons d l r left right ▸ hvalues)
    have hleft : left ≠ [] := by
      rintro rfl
      simp [fieldValues] at hrest
    obtain ⟨tree, htree, hrewrite⟩ :=
      exists_rewrite_rowCompare hd hop hleft l r (Nat.succ.inj hlength)
    obtain ⟨init, last', hinit, hbound⟩ := boundValues_lexicographic (d := d) htree
    obtain ⟨rfl, hlast⟩ : init = first :: middle ∧ [last'] = [last] := by
      rw [hvalues, ← List.cons_append] at hinit
      exact List.append_inj' hinit.symm rfl
    cases hlast
    rw [Expr.lower_of_rewrite hrewrite, Expr.and, boundValues_lower_logical,
      boundValues_lower_compare, hfirst, hbound, List.flatMap_cons]
    simp only [List.append_assoc]

/-! ## Fields on their own -/

/-- An ordering that is rewritten nests at least as deep as its fields. -/
private theorem depth_field_le (hd : d.support .rowOrdering = .emulated)
    (hop : op.isOrdering = true)
    (hlength : left.length = right.length) (hmem : (l, r) ∈ left.zip right) :
    max (l.depth d) (r.depth d) ≤ (Expr.rowCompare op left right).depth d := by
  match left, right, hlength with
  | [], [], _ => cases hmem
  | [l'], [r'], _ =>
    cases List.mem_singleton.1 hmem
    rw [depth_ordering_singleton hd hop]
    omega
  | l₁ :: l₂ :: left, r₁ :: r₂ :: right, hlength =>
    have hfield : max (l.depth d) (r.depth d) ∈
        fieldDepths d (l₁ :: l₂ :: left) (r₁ :: r₂ :: right) := by
      rw [fieldDepths, ← List.map_uncurry_zip_eq_zipWith]
      exact List.mem_map_of_mem (f := Function.uncurry _) hmem
    obtain ⟨i, hi, hget⟩ := List.mem_iff_getElem.1 hfield
    rw [depth_ordering hd hop (by simp) hlength, ← hget]
    exact List.le_max_of_le (List.mem_mapIdx.2 ⟨i, hi, rfl⟩) (Nat.le_add_left _ _)

/-- `p` are the parameters of the two fields, each rendered on its own. -/
def FieldParams (d : Dialect) (s : Settings) (fields : Expr × Expr) (p : List Value) : Prop :=
  ∃ l r, fields.1.render d s = .ok l ∧ fields.2.render d s = .ok r ∧
    p = l.params.toList ++ r.params.toList

theorem FieldParams.eq_pairValues {p : List Value} (hstyle : s.paramStyle ≠ .inline)
    (h : FieldParams d s (l, r) p) : p = pairValues d l r := by
  obtain ⟨lout, rout, hl, hr, rfl⟩ := h
  rw [Expr.eq_rendered_of_render hl, Expr.eq_rendered_of_render hr,
    Expr.params_rendered l d hstyle, Expr.params_rendered r d hstyle, pairValues]

/-- Where the ordering is rendered, so is each field on its own, and binds its own values. -/
private theorem fieldParams_of_render (hd : d.support .rowOrdering = .emulated)
    (hop : op.isOrdering = true) (hstyle : s.paramStyle ≠ .inline)
    (hlength : left.length = right.length) {out : Rendered}
    (h : (Expr.rowCompare op left right).render d s = .ok out) :
    List.Forall₂ (FieldParams d s) (left.zip right) (fieldValues d left right) := by
  rw [fieldValues, ← List.map_uncurry_zip_eq_zipWith, List.forall₂_map_right_iff, List.forall₂_same]
  rintro ⟨l, r⟩ hmem
  have hdepth := depth_field_le hd hop hlength hmem
  have hlimit := Expr.exists_render_iff.1 ⟨out, h⟩
  have hrender (e : Expr) (he : e.depth d ≤ (Expr.rowCompare op left right).depth d) :
      ∃ out, e.render d s = .ok out :=
    Expr.exists_render_iff.2 fun limit hl => Nat.le_trans he (hlimit limit hl)
  obtain ⟨lout, hl⟩ := hrender l (Nat.le_trans (Nat.le_max_left _ _) hdepth)
  obtain ⟨rout, hr⟩ := hrender r (Nat.le_trans (Nat.le_max_right _ _) hdepth)
  have hparams : FieldParams d s (l, r) (lout.params.toList ++ rout.params.toList) :=
    ⟨lout, rout, hl, hr, rfl⟩
  rwa [hparams.eq_pairValues hstyle] at hparams

/-- On a dialect that lacks orderings of rows, an ordering binds what each pair of fields binds where
    it is rendered on its own: the first pair three times, those in the middle twice and the last one
    once, from left to right; scalars bind what they bind on their own. The fields are rendered
    whenever the ordering is, and without a depth limit it always is. -/
theorem params_ordering (hd : d.support .rowOrdering = .emulated) (hop : op.isOrdering = true)
    (hstyle : s.paramStyle ≠ .inline) (hlength : left.length = right.length) :
    (s.maxDepth = none → ∃ out, (Expr.rowCompare op left right).render d s = .ok out) ∧
    ∀ out, (Expr.rowCompare op left right).render d s = .ok out →
      ∃ ps, List.Forall₂ (FieldParams d s) (left.zip right) ps ∧
        (∀ p, ps = [p] → out.params.toList = p) ∧
        ∀ first middle last, ps = first :: (middle ++ [last]) →
          out.params.toList =
            first ++ first ++ first ++ (middle.flatMap fun p => p ++ p) ++ last := by
  refine ⟨fun hdepth => ⟨_, Expr.render_of_unlimited hdepth⟩, fun out h => ?_⟩
  have hparams : out.params.toList = ((Expr.rowCompare op left right).lower d).boundValues := by
    rw [Expr.eq_rendered_of_render h, Expr.params_rendered _ d hstyle]
  refine ⟨fieldValues d left right, fieldParams_of_render hd hop hstyle hlength h, ?_, ?_⟩
  · intro p hvalues
    rw [hparams, boundValues_ordering_singleton hd hop hlength hvalues]
  · intro first middle last hvalues
    rw [hparams, boundValues_ordering hd hop hlength hvalues]

/-- A sum on the left, a column in the middle, a value that is written out at the end. -/
theorem params_ordering_firebird :
    let a : Expr := .column ⟨none, "a", .integer⟩
    let left : List Expr := [.add (.bind (.int 1)) (.bind (.int 2)), a, .bind (.int 3)]
    let right : List Expr := [a, .bind (.int 4), .literal (.int 5)]
    Dialect.support .firebird .rowOrdering = .emulated ∧ Comparator.isOrdering .le = true ∧
      ({} : Settings).paramStyle ≠ .inline ∧ left.length = right.length ∧
      ∃ out, (Expr.rowCompare .le left right).render .firebird = .ok out ∧
        out.params.toList =
          [.int 1, .int 2, .int 1, .int 2, .int 1, .int 2, .int 4, .int 4, .int 3] := by
  intro a left right
  have hd : Dialect.support .firebird .rowOrdering = .emulated := rfl
  have hop : Comparator.isOrdering .le = true := rfl
  have hstyle : ({} : Settings).paramStyle ≠ .inline := by decide
  have hlength : left.length = right.length := rfl
  refine ⟨hd, hop, hstyle, hlength, ?_⟩
  obtain ⟨hrendered, hparams⟩ := params_ordering (s := {}) hd hop hstyle hlength
  obtain ⟨out, hout⟩ := hrendered rfl
  obtain ⟨ps, hps, -, hmany⟩ := hparams out hout
  refine ⟨out, hout, ?_⟩
  cases hps with
  | cons h₁ hps =>
  cases hps with
  | cons h₂ hps =>
  cases hps with
  | cons h₃ hps =>
  cases hps
  rw [hmany _ [_] _ rfl, h₁.eq_pairValues hstyle, h₂.eq_pairValues hstyle,
    h₃.eq_pairValues hstyle]
  simp only [pairValues, Expr.add, Expr.bind, Expr.literal, a, Expr.lower_arith, Expr.lower_constant,
    Expr.lower_column]
  rfl

end RowCompare

end SqlExpr
