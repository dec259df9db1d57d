-- SUMMARY: The rewrites of row comparisons consist of comparisons of the fields at the same positions.
import SqlExpr.Proofs.Expr.Everywhere
import SqlExpr.Render.Piece

/-!
# Conditions on fields

Whatever the comparator, the rewrite of a row comparison joins comparisons of fields at
the same positions by `AND`, `OR` and `NOT` and holds nothing else
(`RowCompare.fieldwise_rewrite`).
-/

namespace SqlExpr.RowCompare

variable {left right : List Expr}

/-! ## Which rewrite it is -/

theorem rewrite_of_isEquality {c : RowCompare} (h : c.op.isEquality = true) :
    c.rewrite .emulated = equality c.left.fields c.right.fields (c.op = .ne) := by
  obtain ⟨op, left, right⟩ := c
  cases op with
  | eq | ne => rfl
  | _ => cases h

private theorem rewrite_of_isOrdering {c : RowCompare} (h : c.op.isOrdering = true) :
    c.rewrite .emulated = ordering c.op c.left.fields c.right.fields := by
  obtain ⟨op, left, right⟩ := c
  cases op with
  | eq | ne => cases h
  | _ => rfl

/-- What is written for an ordering of rows on a dialect that lacks them. -/
theorem rewrite_rowCompare_of_isOrdering {d : Dialect} (hd : d.support .rowOrdering = .emulated)
    {op : Comparator} (hop : op.isOrdering = true) (left right : List Expr) :
    (Expr.rowCompare op left right).rewrite d = ordering op left right := by
  have hconstruct : op.construct = .rowOrdering := by
    revert hop
    cases op <;> decide
  rw [Expr.rewrite, hconstruct, hd]
  exact rewrite_of_isOrdering (c := ⟨op, ⟨left⟩, ⟨right⟩⟩) hop

/-- What is written for `=` and `<>` between rows on a dialect that lacks them. -/
theorem rewrite_rowCompare_of_isEquality {d : Dialect} (hd : d.support .rowEquality = .emulated)
    {op : Comparator} (hop : op.isEquality = true) (left right : List Expr) :
    (Expr.rowCompare op left right).rewrite d = equality left right (op = .ne) := by
  have hconstruct : op.construct = .rowEquality := by
    revert hop
    cases op <;> decide
  rw [Expr.rewrite, hconstruct, hd]
  exact rewrite_of_isEquality (c := ⟨op, ⟨left⟩, ⟨right⟩⟩) hop

/-! ## When rewrites exist -/

theorem exists_equality (hne : left ≠ []) (hlength : left.length = right.length) (negated : Bool) :
    ∃ e, equality left right negated = some e := by
  cases left with
  | nil => exact absurd rfl hne
  | cons l left =>
    cases right with
    | nil => cases hlength
    | cons r right => exact ⟨_, rfl⟩

theorem exists_ordering {op : Comparator} (hop : op.isOrdering = true) (hne : left ≠ [])
    (hlength : left.length = right.length) : ∃ e, ordering op left right = some e := by
  have hsome := (lexicographic_isSome op left right).2 ⟨hne, hlength⟩
  obtain ⟨tree, htree⟩ := Option.isSome_iff_exists.1 hsome
  unfold ordering
  rw [if_pos hop, htree]
  simp only [Option.bind_eq_bind, Option.bind_some]
  split
  · exact ⟨_, rfl⟩
  · exact ⟨_, rfl⟩

/-- Rows with fields, and as many on both sides, can be compared by their fields. -/
theorem exists_rewrite {c : RowCompare} (hne : c.left.fields ≠ [])
    (hlength : c.left.fields.length = c.right.fields.length) :
    ∃ e, c.rewrite .emulated = some e := by
  obtain ⟨op, ⟨left⟩, ⟨right⟩⟩ := c
  cases op with
  | eq => exact exists_equality hne hlength false
  | ne => exact exists_equality hne hlength true
  | gt | ge | lt | le => exact exists_ordering rfl hne hlength

/-! ## What rewrites consist of -/

/-- A condition on the fields at the same positions of two rows. -/
inductive Fieldwise (left right : List Expr) : Expr → Prop
  | compare (op : Comparator) {l r : Expr} (h : (l, r) ∈ left.zip right) :
    Fieldwise left right (.compare op l r)
  | logical (op : Connective) {a b : Expr} (ha : Fieldwise left right a)
    (hb : Fieldwise left right b) : Fieldwise left right (.logical op a b)
  | not {a : Expr} (ha : Fieldwise left right a) : Fieldwise left right (.not a)

/-- Further fields leave a condition a condition on the fields. -/
theorem Fieldwise.cons {e : Expr} (l r : Expr) (h : Fieldwise left right e) :
    Fieldwise (l :: left) (r :: right) e := by
  induction h with
  | compare op h => exact .compare op (List.mem_cons_of_mem _ h)
  | logical op _ _ iha ihb => exact .logical op iha ihb
  | not _ ih => exact .not ih

private theorem fieldwise_fieldEqualities {e : Expr} (h : e ∈ fieldEqualities left right) :
    Fieldwise left right e := by
  unfold fieldEqualities at h
  rw [← List.map_uncurry_zip_eq_zipWith] at h
  obtain ⟨⟨l, r⟩, hmem, rfl⟩ := List.mem_map.1 h
  exact .compare .eq hmem

private theorem fieldwise_conjunction {first : Expr} {rest : List Expr}
    (h : ∀ e ∈ first :: rest, Fieldwise left right e) :
    Fieldwise left right (rest.foldl Expr.and first) := by
  induction rest generalizing first with
  | nil => exact h first (by simp)
  | cons e rest ih =>
    apply ih
    intro x hx
    rcases List.mem_cons.1 hx with rfl | hx
    · exact .logical .and (h first (by simp)) (h e (by simp))
    · exact h x (by simp [hx])

theorem fieldwise_equality {negated : Bool} {e : Expr} (h : equality left right negated = some e) :
    Fieldwise left right e := by
  unfold equality at h
  split at h
  · cases h
  · rename_i first rest hfields
    have hconjunction : Fieldwise left right (rest.foldl Expr.and first) :=
      fieldwise_conjunction fun e he => fieldwise_fieldEqualities (hfields ▸ he)
    cases h
    split
    · exact .not hconjunction
    · exact hconjunction

theorem fieldwise_lexicographic {op : Comparator} {e : Expr}
    (h : lexicographic op left right = some e) : Fieldwise left right e := by
  fun_induction lexicographic op left right generalizing e with
  | case1 l r =>
    cases h
    exact .compare op (by simp)
  | case2 l left r right hne ih =>
    simp only [Option.bind_eq_bind, Option.bind_eq_some_iff, Option.pure_def,
      Option.some.injEq] at h
    obtain ⟨rest, hrest, rfl⟩ := h
    exact .logical .or (.compare op.strict (by simp))
      (.logical .and (.compare .eq (by simp)) ((ih hrest).cons l r))
  | case3 => cases h

/-- An order is the decision by fields, or this behind one more comparison of two fields. -/
theorem exists_lexicographic_of_ordering {op : Comparator} {e : Expr}
    (h : ordering op left right = some e) :
    op.isOrdering = true ∧ ∃ tree, lexicographic op left right = some tree ∧
      (e = tree ∨ ∃ p ∈ left.zip right, e = .and (.compare op.factored p.1 p.2) tree) := by
  unfold ordering at h
  split at h
  case isTrue hop =>
    simp only [Option.bind_eq_bind, Option.bind_eq_some_iff] at h
    obtain ⟨tree, htree, h⟩ := h
    refine ⟨hop, tree, htree, ?_⟩
    split at h
    · cases h
      exact .inr ⟨_, List.mem_cons_self, rfl⟩
    · cases h
      exact .inl rfl
  case isFalse => cases h

theorem fieldwise_ordering {op : Comparator} {e : Expr} (h : ordering op left right = some e) :
    Fieldwise left right e := by
  obtain ⟨-, tree, htree, rfl | ⟨p, hp, rfl⟩⟩ := exists_lexicographic_of_ordering h
  · exact fieldwise_lexicographic htree
  · exact .logical .and (.compare op.factored hp) (fieldwise_lexicographic htree)

/-- The rewrite of a row comparison is a condition on the fields. -/
theorem fieldwise_rewrite {c : RowCompare} {s : Support} {e : Expr} (h : c.rewrite s = some e) :
    Fieldwise c.left.fields c.right.fields e := by
  unfold rewrite at h
  split at h
  · split at h
    · exact fieldwise_equality h
    · exact fieldwise_equality h
    · exact fieldwise_ordering h
  · cases h

/-- What holds everywhere in the fields, in comparisons between them and in conditions made of
    these holds everywhere in a condition on the fields. -/
theorem Fieldwise.everywhere {P : Expr → Prop} {e : Expr} (h : Fieldwise left right e)
    (compare : ∀ op l r, (l, r) ∈ left.zip right → P (.compare op l r))
    (logical : ∀ op a b, Fieldwise left right a → Fieldwise left right b → P (.logical op a b))
    (not : ∀ a, Fieldwise left right a → P (.not a))
    (fields : ∀ a ∈ left ++ right, a.Everywhere P) : e.Everywhere P := by
  induction h with
  | @compare op l r h =>
    have hl := fields l (List.mem_append_left _ (List.of_mem_zip h).1)
    have hr := fields r (List.mem_append_right _ (List.of_mem_zip h).2)
    exact Expr.Everywhere.compare.2 ⟨compare op l r h, hl, hr⟩
  | logical op ha hb iha ihb => exact Expr.Everywhere.logical.2 ⟨logical op _ _ ha hb, iha, ihb⟩
  | not ha ih => exact Expr.Everywhere.not.2 ⟨not _ ha, ih⟩

/-- What holds everywhere in a row comparison, in comparisons of its fields and in conditions made
    of these holds everywhere in the rewrite. -/
theorem everywhere_rewrite {P : Expr → Prop} {c : RowCompare} {s : Support} {e : Expr}
    (h : c.rewrite s = some e) (hP : c.toExpr.Everywhere P)
    (compare : ∀ op l r, (l, r) ∈ c.left.fields.zip c.right.fields → P (.compare op l r))
    (logical : ∀ op a b, Fieldwise c.left.fields c.right.fields a →
      Fieldwise c.left.fields c.right.fields b → P (.logical op a b))
    (not : ∀ a, Fieldwise c.left.fields c.right.fields a → P (.not a)) : e.Everywhere P := by
  obtain ⟨-, hleft, hright⟩ := Expr.Everywhere.rowCompare.1 hP
  refine (fieldwise_rewrite h).everywhere compare logical not ?_
  intro a ha
  rcases List.mem_append.1 ha with ha | ha
  · exact (Expr.Everywhere.row.1 hleft).2 a ha
  · exact (Expr.Everywhere.row.1 hright).2 a ha

end SqlExpr.RowCompare
