-- SUMMARY: Everything that rendering visits has less height than the node that visits it.
import SqlExpr.Expr.Induction
import SqlExpr.Render.Piece

/-!
# Visits go down

A rewrite can be larger than the node it replaces and hold an operand several times,
but it has less height. The main statement `Expr.height_lt_of_mem_pieces` says that
every expression that a node visits, rewrites included, has less height than the node,
so rendering ends.
-/

namespace SqlExpr

private theorem Piece.visit_mem_visits {separator : List Piece} {es : List Expr} {e : Expr}
    (hs : ∀ e, .visit e ∉ separator) : .visit e ∈ visits separator es ↔ e ∈ es := by
  induction es with
  | nil => simp [visits]
  | cons a es ih =>
    cases es with
    | nil => simp [visits]
    | cons b es =>
      have := hs e
      simp_all [visits, List.intercalate]

namespace Expr

private theorem listHeight_le {es : List Expr} {n : Nat} (h : ∀ e ∈ es, e.height ≤ n) :
    listHeight es ≤ n := by
  induction es with
  | nil => simp [listHeight]
  | cons e es ih =>
    have := h e (by simp)
    have := ih fun a ha => h a (by simp [ha])
    simp only [listHeight]
    omega

theorem height_call_le {f : Builtin} {args : List Expr} {n : Nat} (h : ∀ a ∈ args, a.height ≤ n) :
    (Expr.call f args).height ≤ 1 + n := by
  have := listHeight_le h
  simp only [height]
  omega

theorem height_arith_le {op : ArithOp} {l r : Expr} {n : Nat} (hl : l.height ≤ n)
    (hr : r.height ≤ n) : (Expr.arith op l r).height ≤ 1 + n := by
  simp only [height]
  omega

/-- The default length is a call around the replacement, a given one an operand. -/
theorem height_effectiveLength_le {o : Overlay} {n : Nat} (hr : o.replacement.height ≤ n)
    (hl : optionHeight o.length ≤ n) : o.effectiveLength.height ≤ 1 + n := by
  unfold Overlay.effectiveLength
  cases h : o.length with
  | none => exact height_call_le (by simpa using hr)
  | some length =>
    simp only [h, optionHeight] at hl
    simp only [Option.getD_some]
    omega

/-- The operands of an overlay all have a height of at most `n`. -/
structure OperandsWithin (o : Overlay) (n : Nat) : Prop where
  source : o.source.height ≤ n
  replacement : o.replacement.height ≤ n
  start : o.start.height ≤ n
  length : optionHeight o.length ≤ n

private theorem height_alternate_le {o : Overlay} {n : Nat} (h : OperandsWithin o n) :
    o.alternate.height ≤ 2 + n := by
  have hl := height_effectiveLength_le h.replacement h.length
  have : o.alternate.height ≤ 1 + (1 + n) := height_call_le (by
    have := h.source; have := h.replacement; have := h.start
    simp only [List.mem_cons, List.not_mem_nil, or_false, forall_eq_or_imp, forall_eq]
    omega)
  omega

private theorem height_head_le {o : Overlay} {n : Nat} (h : OperandsWithin o n) :
    o.head.height ≤ 2 + n := by
  have hone : (Expr.literal (.int 1)).height ≤ n :=
    Nat.le_trans (Nat.le_of_eq rfl) (Nat.le_trans (height_pos _) h.source)
  have hsub : (o.start.sub (.literal (.int 1))).height ≤ 1 + n := height_arith_le h.start hone
  have : o.head.height ≤ 1 + (1 + n) := height_call_le (by
    have := h.source
    simp only [List.mem_cons, List.not_mem_nil, or_false, forall_eq_or_imp, forall_eq]
    omega)
  omega

private theorem height_tail_le {o : Overlay} {n : Nat} (h : OperandsWithin o n) :
    o.tail.height ≤ 3 + n := by
  have hl := height_effectiveLength_le h.replacement h.length
  have hadd : (o.start.add o.effectiveLength).height ≤ 1 + (1 + n) :=
    height_arith_le (Nat.le_trans h.start (Nat.le_add_left ..)) hl
  have : o.tail.height ≤ 1 + (2 + n) := height_call_le (by
    have := h.source
    simp only [List.mem_cons, List.not_mem_nil, or_false, forall_eq_or_imp, forall_eq]
    omega)
  omega

private theorem height_emulated_le {o : Overlay} {n : Nat} (h : OperandsWithin o n) :
    o.emulated.height ≤ 4 + n := by
  have hhead := height_head_le h
  have htail := height_tail_le h
  have hfront : (Expr.call o.concatFunction [o.head, o.replacement]).height ≤ 1 + (2 + n) :=
    height_call_le (by
      have := h.replacement
      simp only [List.mem_cons, List.not_mem_nil, or_false, forall_eq_or_imp, forall_eq]
      omega)
  have : o.emulated.height ≤ 1 + (3 + n) := height_call_le (by
    simp only [List.mem_cons, List.not_mem_nil, or_false, forall_eq_or_imp, forall_eq]
    omega)
  omega

/-- A rewritten overlay has less height than the overlay. -/
private theorem height_rewrite_overlay {o : Overlay} {s : Support} {e : Expr}
    (h : o.rewrite s = some e) : e.height < o.toExpr.height := by
  have hheight : o.toExpr.height = 5 + max (max o.source.height o.replacement.height)
    (max o.start.height (optionHeight o.length)) := rfl
  have within : OperandsWithin o (max (max o.source.height o.replacement.height)
      (max o.start.height (optionHeight o.length))) := by
    constructor <;> omega
  cases s with
  | native => cases h
  | alternate =>
    cases h
    have := height_alternate_le within
    omega
  | emulated =>
    cases h
    have := height_emulated_le within
    omega

private theorem height_foldl_and {first : Expr} {rest : List Expr} {n : Nat}
    (h : ∀ e ∈ rest, e.height ≤ n) :
    (rest.foldl Expr.and first).height ≤ rest.length + max first.height n := by
  induction rest generalizing first with
  | nil => simp only [List.foldl_nil, List.length_nil]; omega
  | cons e rest ih =>
    have he := h e (by simp)
    have : (rest.foldl Expr.and (first.and e)).height ≤ _ :=
      ih fun a ha => h a (by simp [ha])
    have hf : (first.and e).height = 1 + max first.height e.height := rfl
    simp only [List.foldl_cons, List.length_cons]
    omega

private theorem height_fieldEqualities {left right : List Expr} {e : Expr}
    (h : e ∈ RowCompare.fieldEqualities left right) :
    e.height ≤ 1 + max (listHeight left) (listHeight right) := by
  induction left generalizing right with
  | nil => cases right <;> simp [RowCompare.fieldEqualities] at h
  | cons l left ih =>
    cases right with
    | nil => simp [RowCompare.fieldEqualities] at h
    | cons r right =>
      simp only [RowCompare.fieldEqualities, List.zipWith_cons_cons, List.mem_cons] at h
      simp only [listHeight]
      rcases h with rfl | h
      · simp only [height]; omega
      · have := @ih right h; omega

private theorem height_equality {left right : List Expr} {negated : Bool} {e : Expr}
    (h : RowCompare.equality left right negated = some e) :
    e.height ≤ left.length + 1 + max (listHeight left) (listHeight right) := by
  unfold RowCompare.equality at h
  split at h
  · cases h
  · next first rest hf =>
    have hlen : rest.length + 1 ≤ left.length := by
      have : (RowCompare.fieldEqualities left right).length ≤ left.length := by
        simp only [RowCompare.fieldEqualities, List.length_zipWith]; omega
      simpa [hf] using this
    have hall : ∀ e ∈ first :: rest, e.height ≤ 1 + max (listHeight left) (listHeight right) :=
      fun e he => height_fieldEqualities (hf ▸ he)
    have hfirst := hall first (by simp)
    have : (rest.foldl Expr.and first).height ≤ _ :=
      height_foldl_and fun e he => hall e (List.mem_cons_of_mem _ he)
    cases h
    split
    · simp only [height]; omega
    · omega

private theorem height_lexicographic {op : Comparator} {left right : List Expr} {e : Expr}
    (h : RowCompare.lexicographic op left right = some e) :
    e.height ≤ 2 * left.length + max (listHeight left) (listHeight right) := by
  fun_induction RowCompare.lexicographic op left right generalizing e with
  | case1 l r => cases h; simp only [height, listHeight, List.length_cons]; omega
  | case2 l left r right hne ih =>
    simp only [Option.bind_eq_bind, Option.bind_eq_some_iff, Option.pure_def,
      Option.some.injEq] at h
    obtain ⟨rest, hrest, rfl⟩ := h
    have := ih hrest
    have hleft : left ≠ [] :=
      ((RowCompare.lexicographic_isSome op left right).1 (by simp [hrest])).1
    have := List.length_pos_iff.2 hleft
    simp only [or, and, height, listHeight, List.length_cons]
    omega
  | case3 => cases h

private theorem height_ordering {op : Comparator} {left right : List Expr} {e : Expr}
    (h : RowCompare.ordering op left right = some e) :
    e.height ≤ 2 * left.length + 1 + max (listHeight left) (listHeight right) := by
  unfold RowCompare.ordering at h
  split at h
  · simp only [Option.bind_eq_bind, Option.bind_eq_some_iff] at h
    obtain ⟨tree, htree, h⟩ := h
    have := height_lexicographic htree
    split at h
    · cases h
      simp only [and, height, listHeight, List.length_cons] at *
      omega
    · cases h
      omega
  · cases h

/-- A rewritten row comparison has less height than the comparison. -/
private theorem height_rewrite_rowCompare {c : RowCompare} {s : Support} {e : Expr}
    (h : c.rewrite s = some e) : e.height < c.toExpr.height := by
  obtain ⟨op, ⟨left⟩, ⟨right⟩⟩ := c
  simp only [RowCompare.toExpr, height]
  unfold RowCompare.rewrite at h
  split at h
  · split at h
    · have := height_equality h; dsimp only at this; omega
    · have := height_equality h; dsimp only at this; omega
    · have := height_ordering h; dsimp only at this; omega
  · cases h

/-- A rewrite has less height than the expression it replaces. -/
theorem height_rewrite_lt {d : Dialect} {e e' : Expr} (h : e.rewrite d = some e') :
    e'.height < e.height := by
  unfold rewrite at h
  split at h
  · exact height_rewrite_overlay h
  · exact height_rewrite_rowCompare h
  · cases h

private theorem height_lt_of_mem_nativePieces {d : Dialect} {e e' : Expr}
    (h : .visit e' ∈ e.nativePieces d) : e'.height < e.height := by
  cases e with
  | column | constant => simp [nativePieces] at h
  | call f args =>
    have : e' ∈ args := by
      simp only [nativePieces] at h
      split at h <;> simpa [Piece.visit_mem_visits, Piece.sql] using h
    have := height_le_listHeight this
    simp only [height]; omega
  | row fields =>
    have : e' ∈ fields := by
      simp only [nativePieces] at h
      simpa [Piece.visit_mem_visits, Piece.sql] using h
    have := height_le_listHeight this
    simp only [height]; omega
  | logical op l r =>
    simp only [nativePieces] at h
    refine @height_lt_of_mem_chain_logical op l r e' ?_
    simpa [Piece.visit_mem_visits, Piece.sql, Piece.keyword] using h
  | overlay source replacement start length =>
    simp only [height]
    cases length with
    | none =>
      simp [nativePieces, Overlay.pieces, Piece.sql, Piece.keyword] at h
      rcases h with rfl | rfl | rfl <;> omega
    | some length =>
      simp [nativePieces, Overlay.pieces, Piece.sql, Piece.keyword] at h
      simp only [optionHeight]
      rcases h with rfl | rfl | rfl | rfl <;> omega
  | rowCompare op left right =>
    have : e' = .row left ∨ e' = .row right := by
      simp only [nativePieces, RowCompare.pieces] at h
      split at h <;> simpa [Piece.sql, Row.toExpr] using h
    simp only [height]
    rcases this with rfl | rfl <;> simp only [height] <;> omega
  | not e =>
    have : e' = e := by
      simp only [nativePieces] at h
      split at h <;> simpa [Piece.sql, Piece.keyword] using h
    subst this
    simp only [height]; omega
  | _ =>
    simp [nativePieces, Piece.sql] at h
    simp only [height]
    rcases h with rfl | rfl <;> omega

/-- Everything that a node visits, its rewrite included, has less height than the node. -/
theorem height_lt_of_mem_pieces {d : Dialect} {e e' : Expr} (h : .visit e' ∈ e.pieces d) :
    e'.height < e.height := by
  unfold pieces at h
  split at h
  · next hr =>
    simp only [List.mem_singleton, Piece.visit.injEq] at h
    exact h ▸ height_rewrite_lt hr
  · exact height_lt_of_mem_nativePieces h

/-- To prove a statement for every expression, prove it for each from the statement for what it
    visits on a dialect. -/
@[elab_as_elim]
theorem visit_induction {motive : Expr → Prop} (d : Dialect)
    (node : ∀ e, (∀ e', .visit e' ∈ e.pieces d → motive e') → motive e) (e : Expr) : motive e := by
  induction h : e.height using Nat.strongRecOn generalizing e with
  | _ n ih =>
  subst h
  exact node e fun e' he' => ih _ (height_lt_of_mem_pieces he') e' rfl

end Expr

end SqlExpr
