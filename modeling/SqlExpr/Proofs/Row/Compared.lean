-- SUMMARY: Which fields the rewrites of row comparisons compare, and when they compare rows again.
import SqlExpr.Proofs.Expr.Operand
import SqlExpr.Proofs.Lowering.Basic
import SqlExpr.Proofs.Render.Writes
import SqlExpr.Proofs.Row.Placement

/-!
# What rewrites compare

A rewritten order compares every field with the one opposite, and there is none for rows of
different degrees (`RowCompare.Covers`). An equality is made of any two rows with fields: it
compares those that have one opposite and no others (`RowCompare.builders_outcome`).

The rewrites go one level deep. A field that is itself a row is compared as it is, so a rewritten
comparison compares no rows exactly if the rows hold none (`RowCompare.compared_rewrite_iff`).
-/

namespace SqlExpr

/-! ## Comparisons in a condition -/

namespace Expr

/-- The two sides of each comparison that a condition joins by `AND`, `OR` and `NOT`, in order. -/
def compared : Expr → List (Expr × Expr)
  | .compare _ l r => [(l, r)]
  | .logical _ a b => a.compared ++ b.compared
  | .not a => a.compared
  | _ => []

@[simp] theorem compared_compare (op : Comparator) (l r : Expr) :
    (Expr.compare op l r).compared = [(l, r)] := rfl

@[simp] theorem compared_logical (op : Connective) (a b : Expr) :
    (Expr.logical op a b).compared = a.compared ++ b.compared := rfl

@[simp] theorem compared_not (a : Expr) : (Expr.not a).compared = a.compared := rfl

/-- What holds everywhere in a condition holds of its comparisons and everywhere in their sides. -/
private theorem Everywhere.of_mem_compared {P : Expr → Prop} {e : Expr} (h : e.Everywhere P)
    {p : Expr × Expr} (hp : p ∈ e.compared) :
    (∃ op, P (.compare op p.1 p.2)) ∧ p.1.Everywhere P ∧ p.2.Everywhere P := by
  fun_induction compared e with
  | case1 op l r =>
    obtain ⟨hnode, hl, hr⟩ := Everywhere.compare.1 h
    cases List.mem_singleton.1 hp
    exact ⟨⟨op, hnode⟩, hl, hr⟩
  | case2 op a b iha ihb =>
    obtain ⟨-, ha, hb⟩ := Everywhere.logical.1 h
    rcases List.mem_append.1 hp with hp | hp
    · exact iha ha hp
    · exact ihb hb hp
  | case3 a ih => exact ih (Everywhere.not.1 h).2 hp
  | case4 => cases hp

end Expr

namespace RowCompare

variable {left right : List Expr} {op : Comparator} {e : Expr}

private theorem Fieldwise.mem_zip (h : Fieldwise left right e) {p : Expr × Expr}
    (hp : p ∈ e.compared) : p ∈ left.zip right := by
  induction h with
  | compare op h => rwa [List.mem_singleton.1 hp]
  | logical op _ _ iha ihb =>
    rcases List.mem_append.1 hp with hp | hp
    · exact iha hp
    · exact ihb hp
  | not _ ih => exact ih hp

/-- Lowering a condition on fields lowers what it compares. -/
private theorem Fieldwise.compared_lower (h : Fieldwise left right e) (d : Dialect) :
    (e.lower d).compared = e.compared.map (Prod.map (Expr.lower d) (Expr.lower d)) := by
  induction h with
  | compare op h => simp
  | logical op _ _ iha ihb => simp [iha, ihb]
  | not _ ih => simp [ih]

/-! ## Conditions that compare all fields -/

/-- The condition compares fields at the same positions of the two rows, and it leaves out none:
    the fields of either row are found on its side of the comparisons, each in its turn. -/
structure Covers (left right : List Expr) (e : Expr) : Prop where
  fieldwise : Fieldwise left right e
  left : List.Sublist left (e.compared.map Prod.fst)
  right : List.Sublist right (e.compared.map Prod.snd)

theorem covers_of_zip_sublist (hlength : left.length = right.length)
    (hfieldwise : Fieldwise left right e) (h : List.Sublist (left.zip right) e.compared) :
    Covers left right e where
  fieldwise := hfieldwise
  left := by
    have hleft := h.map Prod.fst
    rwa [List.map_fst_zip (Nat.le_of_eq hlength)] at hleft
  right := by
    have hright := h.map Prod.snd
    rwa [List.map_snd_zip (Nat.le_of_eq hlength.symm)] at hright

/-- What is true of both sides of all comparisons is true of all fields. -/
theorem Covers.forall_iff (h : Covers left right e) {P : Expr → Prop} :
    (∀ p ∈ e.compared, P p.1 ∧ P p.2) ↔ ∀ a ∈ left ++ right, P a := by
  constructor
  · intro hP a ha
    rcases List.mem_append.1 ha with ha | ha
    · obtain ⟨p, hp, rfl⟩ := List.mem_map.1 (h.left.subset ha)
      exact (hP p hp).1
    · obtain ⟨p, hp, rfl⟩ := List.mem_map.1 (h.right.subset ha)
      exact (hP p hp).2
  · intro hP p hp
    obtain ⟨hl, hr⟩ := List.of_mem_zip (h.fieldwise.mem_zip hp)
    exact ⟨hP _ (List.mem_append_left _ hl), hP _ (List.mem_append_right _ hr)⟩

/-! ## Equalities -/

private theorem compared_foldl_and (first : Expr) (rest : List Expr) :
    (rest.foldl Expr.and first).compared = (first :: rest).flatMap Expr.compared := by
  induction rest generalizing first with
  | nil => simp
  | cons e rest ih => simp [ih, Expr.and]

private theorem flatMap_fieldEqualities (left right : List Expr) :
    (fieldEqualities left right).flatMap Expr.compared = left.zip right := by
  rw [fieldEqualities, ← List.map_uncurry_zip_eq_zipWith, List.flatMap_map]
  exact List.flatMap_singleton' _

/-- An equality compares each field that has one opposite with it. -/
theorem compared_equality {negated : Bool} (h : equality left right negated = some e) :
    e.compared = left.zip right := by
  unfold equality at h
  split at h
  · cases h
  · rename_i first rest hfields
    have hconjunction : (rest.foldl Expr.and first).compared = left.zip right := by
      rw [compared_foldl_and, ← hfields, flatMap_fieldEqualities]
    cases h
    cases negated with
    | true => exact hconjunction
    | false => exact hconjunction

private theorem equality_isSome (left right : List Expr) (negated : Bool) :
    (equality left right negated).isSome = true ↔ left ≠ [] ∧ right ≠ [] := by
  cases left with
  | nil => simp [equality, fieldEqualities]
  | cons l left =>
    cases right with
    | nil => simp [equality, fieldEqualities]
    | cons r right => simp [equality, fieldEqualities]

/-- It leaves out no field only if no row is longer than the other. -/
theorem covers_equality_iff {negated : Bool} (h : equality left right negated = some e) :
    Covers left right e ↔ left.length = right.length := by
  have hcompared := compared_equality h
  constructor
  · intro hcovers
    have hleft := hcovers.left.length_le
    have hright := hcovers.right.length_le
    rw [hcompared, List.length_map, List.length_zip] at hleft hright
    omega
  · intro hlength
    exact covers_of_zip_sublist hlength (fieldwise_equality h) (hcompared ▸ .refl _)

/-! ## Orders -/

private theorem zip_sublist_lexicographic (h : lexicographic op left right = some e) :
    List.Sublist (left.zip right) e.compared := by
  fun_induction lexicographic op left right generalizing e with
  | case1 l r =>
    cases h
    exact .refl _
  | case2 l left r right hne ih =>
    simp only [Option.bind_eq_bind, Option.bind_eq_some_iff, Option.pure_def,
      Option.some.injEq] at h
    obtain ⟨rest, hrest, rfl⟩ := h
    -- the fields are compared twice, by the strict comparator and for a tie
    exact ((ih hrest).cons_cons (l, r)).cons (l, r)
  | case3 => cases h

theorem covers_lexicographic (h : lexicographic op left right = some e) : Covers left right e :=
  have hlength := ((lexicographic_isSome op left right).1 (h ▸ rfl)).2
  covers_of_zip_sublist hlength (fieldwise_lexicographic h) (zip_sublist_lexicographic h)

private theorem ordering_isSome (op : Comparator) (left right : List Expr) :
    (ordering op left right).isSome = true ↔
      op.isOrdering = true ∧ left ≠ [] ∧ left.length = right.length := by
  constructor
  · intro h
    obtain ⟨e, he⟩ := Option.isSome_iff_exists.1 h
    obtain ⟨hop, tree, htree, -⟩ := exists_lexicographic_of_ordering he
    exact ⟨hop, (lexicographic_isSome op left right).1 (htree ▸ rfl)⟩
  · rintro ⟨hop, hne, hlength⟩
    exact Option.isSome_iff_exists.2 (exists_ordering hop hne hlength)

theorem covers_ordering (h : ordering op left right = some e) : Covers left right e := by
  have hfieldwise := fieldwise_ordering h
  obtain ⟨-, tree, htree, rfl | ⟨p, -, rfl⟩⟩ := exists_lexicographic_of_ordering h
  · exact covers_lexicographic htree
  · have hcovers := covers_lexicographic htree
    exact ⟨hfieldwise, hcovers.left.cons p.1, hcovers.right.cons p.2⟩

/-! ## When there are rewrites -/

/-- An order has a rewrite exactly for rows of one degree that have fields, and it leaves out
    none. An equality has one for all rows that have fields, and it leaves out those of the longer
    row that have none opposite. -/
theorem builders_outcome (left right : List Expr) :
    (∀ negated,
      ((equality left right negated).isSome = true ↔ left ≠ [] ∧ right ≠ []) ∧
      ∀ e, equality left right negated = some e →
        e.compared = left.zip right ∧ (Covers left right e ↔ left.length = right.length)) ∧
    ∀ op,
      ((lexicographic op left right).isSome = true ↔
        left ≠ [] ∧ left.length = right.length) ∧
      ((ordering op left right).isSome = true ↔
        op.isOrdering = true ∧ left ≠ [] ∧ left.length = right.length) ∧
      (∀ e, lexicographic op left right = some e → Covers left right e) ∧
      ∀ e, ordering op left right = some e → Covers left right e := by
  refine ⟨fun negated => ?_, fun op => ?_⟩
  · exact ⟨equality_isSome left right negated,
      fun e he => ⟨compared_equality he, covers_equality_iff he⟩⟩
  · exact ⟨lexicographic_isSome op left right, ordering_isSome op left right,
      fun e => covers_lexicographic, fun e => covers_ordering⟩

/-- Rows of two fields in order, and of two fields and one: the order has no rewrite, and the
    equality leaves out `b`. -/
theorem builders_outcome_uneven :
    let a : Expr := .column ⟨none, "a", .unknown⟩
    let b : Expr := .column ⟨none, "b", .unknown⟩
    let x : Expr := .column ⟨none, "x", .unknown⟩
    let y : Expr := .column ⟨none, "y", .unknown⟩
    (∃ e, ordering .ge [a, b] [x, y] = some e ∧ Covers [a, b] [x, y] e) ∧
      (ordering .ge [a, b] [x]).isSome = false ∧
      equality [a, b] [x] true = some (.not (.compare .eq a x)) ∧
      ¬ Covers [a, b] [x] (.not (.compare .eq a x)) := by
  intro a b x y
  obtain ⟨-, hordering, -, hcovers⟩ := (builders_outcome [a, b] [x, y]).2 .ge
  obtain ⟨hequality, horders⟩ := builders_outcome [a, b] [x]
  obtain ⟨e, he⟩ := Option.isSome_iff_exists.1 (hordering.2 ⟨rfl, List.cons_ne_nil a [b], rfl⟩)
  have hdropped : equality [a, b] [x] true = some (.not (.compare .eq a x)) := rfl
  refine ⟨⟨e, he, hcovers e he⟩, ?_, hdropped, ?_⟩
  · rw [← Bool.not_eq_true, (horders .ge).2.1]
    simp
  · rw [((hequality true).2 _ hdropped).2]
    simp

/-- The equality of two fields and one compares the first of them, where an order has no rewrite. -/
theorem equality_of_uneven_rows :
    let a : Expr := .column ⟨none, "a", .unknown⟩
    let b : Expr := .column ⟨none, "b", .unknown⟩
    let x : Expr := .column ⟨none, "x", .unknown⟩
    equality [a, b] [x] false = some (.compare .eq a x) ∧
      lexicographic .eq [a, b] [x] = none ∧
      ¬ ∀ left right negated, (equality left right negated).isSome = true ↔
        left ≠ [] ∧ left.length = right.length := by
  intro a b x
  refine ⟨rfl, rfl, fun h => ?_⟩
  have hlength := ((h [a, b] [x] false).1 rfl).2
  cases hlength

end RowCompare

/-! ## Rows among the fields -/

namespace Expr

/-- If the node is a comparison, neither side is a row. -/
def ComparesScalars : Expr → Prop
  | .compare _ l r => l.isRow = false ∧ r.isRow = false
  | _ => True

/-- Nothing that the condition compares is a row. -/
def ComparesNoRow (e : Expr) : Prop :=
  ∀ p ∈ e.compared, p.1.isRow = false ∧ p.2.isRow = false

private theorem isRow_lower (d : Dialect) (e : Expr) : (e.lower d).isRow = e.isRow := by
  induction e using lowering_induction d with
  | rewritten e e' h ih =>
    have hrow : e.isRow = false := by
      cases e with
      | row fields => cases h
      | _ => rfl
    rw [lower_of_rewrite h, ih, isRow_of_rewrite h, hrow]
  | overlay source replacement start length h => rw [lower_overlay h]; rfl
  | rowCompare op left right h => rw [lower_rowCompare h]; rfl
  | column | constant | call | arith | compare | logical | not | row => simp [isRow]

theorem SameButType.isRow_eq {a b : Expr} (h : SameButType a b) : b.isRow = a.isRow := by
  cases h with
  | refl => rfl
  | constant => rfl

private theorem SameButType.comparesScalars_iff {a b : Expr} (h : SameButType a b) :
    b.Everywhere ComparesScalars ↔ a.Everywhere ComparesScalars := by
  cases h with
  | refl => rfl
  | constant c t => simp [ComparesScalars]

private theorem forall_mem_iff_of_sameButType {P : Expr → Prop} {es es' : List Expr}
    (h : List.Forall₂ SameButType es es') (hP : ∀ a b, SameButType a b → (P b ↔ P a)) :
    (∀ b ∈ es', P b) ↔ ∀ a ∈ es, P a := by
  induction h with
  | nil => simp
  | cons h _ ih => rw [List.forall_mem_cons, List.forall_mem_cons, hP _ _ h, ih]

end Expr

namespace RowCompare

variable {op : Comparator} {l r : Row} {c : RowCompare} {e : Expr}

private theorem covers_rewrite {c : RowCompare} (hlength : c.left.degree = c.right.degree)
    (h : c.rewrite .emulated = some e) : Covers c.left.fields c.right.fields e := by
  obtain ⟨op, l, r⟩ := c
  cases op with
  | eq | ne => exact (covers_equality_iff h).2 hlength
  | gt | ge | lt | le => exact covers_ordering h

private theorem Fieldwise.comparesNoRow_lower {left right : List Expr} (h : Fieldwise left right e)
    (d : Dialect) : (e.lower d).ComparesNoRow ↔ e.ComparesNoRow := by
  rw [Expr.ComparesNoRow, h.compared_lower, List.forall_mem_map]
  simp only [Prod.map_fst, Prod.map_snd, Expr.isRow_lower, Expr.ComparesNoRow]

/-- Building a comparison changes no property of fields that the types of constants do not
    matter to. -/
private theorem forall_fields_iff_of_new {P : Expr → Prop} (h : new op l r = .ok c)
    (hP : ∀ a b, Expr.SameButType a b → (P b ↔ P a)) :
    (∀ a ∈ c.left.fields ++ c.right.fields, P a) ↔ ∀ a ∈ l.fields ++ r.fields, P a := by
  obtain ⟨hleft, hright⟩ := sameButType_of_new h
  rw [List.forall_mem_append, List.forall_mem_append,
    Expr.forall_mem_iff_of_sameButType hleft hP, Expr.forall_mem_iff_of_sameButType hright hP]

theorem Covers.everywhere_comparesScalars_iff {left right : List Expr}
    (h : Covers left right e) : e.Everywhere Expr.ComparesScalars ↔
      ∀ a ∈ left ++ right, a.isRow = false ∧ a.Everywhere Expr.ComparesScalars := by
  constructor
  · intro he
    refine h.forall_iff.1 fun p hp => ?_
    obtain ⟨⟨op, hl, hr⟩, hleft, hright⟩ := he.of_mem_compared hp
    exact ⟨⟨hl, hleft⟩, hr, hright⟩
  · intro hfields
    refine h.fieldwise.everywhere ?_ (fun _ _ _ _ _ => trivial) (fun _ _ => trivial)
      fun a ha => (hfields a ha).2
    intro op l r hmem
    obtain ⟨hl, hr⟩ := List.of_mem_zip hmem
    exact ⟨(hfields l (List.mem_append_left _ hl)).1, (hfields r (List.mem_append_right _ hr)).1⟩

/-- Every comparison of rows with fields has a rewrite, which covers the rows and stands for the
    comparison wherever a dialect has to emulate it. What is compared, also after lowering, is
    no row exactly if no field is one. -/
theorem compared_rewrite_iff (h : new op l r = .ok c) (hne : l.fields ≠ []) :
    ∃ e, c.rewrite .emulated = some e ∧ Covers c.left.fields c.right.fields e ∧
      (e.ComparesNoRow ↔ ∀ a ∈ l.fields ++ r.fields, a.isRow = false) ∧
      (e.Everywhere Expr.ComparesScalars ↔
        ∀ a ∈ l.fields ++ r.fields, a.isRow = false ∧ a.Everywhere Expr.ComparesScalars) ∧
      ∀ d : Dialect, d.support op.construct = .emulated → c.toExpr.rewrite d = some e ∧
        ((c.toExpr.lower d).ComparesNoRow ↔ ∀ a ∈ l.fields ++ r.fields, a.isRow = false) := by
  have hlength : c.left.degree = c.right.degree := degree_eq_of_new (new_again h)
  obtain ⟨e, he⟩ := exists_rewrite (fields_left_ne_nil_of_new h hne) hlength
  have hcovers := covers_rewrite hlength he
  have hrows : e.ComparesNoRow ↔ ∀ a ∈ l.fields ++ r.fields, a.isRow = false := by
    rw [Expr.ComparesNoRow, hcovers.forall_iff (P := fun a => a.isRow = false)]
    exact forall_fields_iff_of_new h fun a b hab => by rw [hab.isRow_eq]
  refine ⟨e, he, hcovers, hrows, ?_, fun d hd => ?_⟩
  · rw [hcovers.everywhere_comparesScalars_iff]
    exact forall_fields_iff_of_new h fun a b hab => by
      rw [hab.isRow_eq, hab.comparesScalars_iff]
  · have hrewrite : c.toExpr.rewrite d = some e := by
      rw [← op_of_new h] at hd
      simpa [Expr.rewrite, toExpr, hd] using he
    refine ⟨hrewrite, ?_⟩
    rw [← hrows, Expr.lower_of_rewrite hrewrite]
    exact hcovers.fieldwise.comparesNoRow_lower d

/-- On Derby the rewrite for rows of scalars compares no row, the one for rows that hold a row
    does. -/
theorem compared_rewrite_on_derby :
    let a : Expr := .column ⟨none, "a", .unknown⟩
    let x : Expr := .column ⟨none, "x", .unknown⟩
    let flat : RowCompare := ⟨.lt, ⟨[a, .bind (.int 1)]⟩, ⟨[x, .bind (.int 2)]⟩⟩
    let nested : RowCompare := ⟨.lt, ⟨[a, .row [a]]⟩, ⟨[x, .row [x]]⟩⟩
    new .lt flat.left flat.right = .ok flat ∧ new .lt nested.left nested.right = .ok nested ∧
      (flat.toExpr.lower .derby).ComparesNoRow ∧ ¬ (nested.toExpr.lower .derby).ComparesNoRow := by
  intro a x flat nested
  have hflat : new .lt flat.left flat.right = .ok flat := rfl
  have hnested : new .lt nested.left nested.right = .ok nested := rfl
  obtain ⟨_, -, -, -, -, hflatDialects⟩ := compared_rewrite_iff hflat (List.cons_ne_nil _ _)
  obtain ⟨_, -, -, -, -, hnestedDialects⟩ := compared_rewrite_iff hnested (List.cons_ne_nil _ _)
  refine ⟨hflat, hnested, (hflatDialects .derby rfl).2.2 ?_, fun hnorow => ?_⟩
  · decide
  · have hfield := (hnestedDialects .derby rfl).2.1 hnorow (.row [a]) (by simp [nested])
    cases hfield

/-- Rows of one field, which is a row: Derby is given a comparison of the inner rows. -/
theorem rewrite_of_inner_rows :
    let a : Expr := .column ⟨none, "a", .unknown⟩
    let b : Expr := .column ⟨none, "b", .unknown⟩
    let x : Expr := .column ⟨none, "x", .unknown⟩
    let y : Expr := .column ⟨none, "y", .unknown⟩
    let l : Row := ⟨[.row [a, b]]⟩
    let r : Row := ⟨[.row [x, y]]⟩
    let c : RowCompare := ⟨.eq, l, r⟩
    let e : Expr := .compare .eq (.row [a, b]) (.row [x, y])
    Row.new [a, b] = .ok ⟨[a, b]⟩ ∧ Row.new [x, y] = .ok ⟨[x, y]⟩ ∧ Row.new l.fields = .ok l ∧
      Row.new r.fields = .ok r ∧ new .eq l r = .ok c ∧ c.rewrite .emulated = some e ∧
      Dialect.derby.support Comparator.eq.construct = .emulated ∧
      c.toExpr.lower .derby = e ∧ ¬ e.ComparesNoRow ∧
      c.toExpr.render .derby = .ok ⟨"(a, b) = (x, y)", #[]⟩ := by
  intro a b x y l r c e
  have hrewrite : c.toExpr.rewrite .derby = some e := rfl
  refine ⟨rfl, rfl, rfl, rfl, rfl, rfl, rfl, ?_, ?_, ?_⟩
  · rw [Expr.lower_of_rewrite hrewrite]
    simp [e, a, b, x, y]
  · intro hnorow
    have hfield := (hnorow (.row [a, b], .row [x, y]) List.mem_cons_self).1
    cases hfield
  · rw [Expr.render_of_unlimited rfl]
    simp only [Expr.rendered, Expr.writes_of_rewrite hrewrite, e, a, b, x, y,
      Expr.writes_compare, Expr.writes_row, List.map_cons, List.map_nil, Expr.writes_column]
    exact congrArg Except.ok (by decide +kernel)

end RowCompare

end SqlExpr
