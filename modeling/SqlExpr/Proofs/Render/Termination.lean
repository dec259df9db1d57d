-- SUMMARY: Rendering ends on every expression, also where rewrites grow, and its equations have no other solution.
import Mathlib.Data.List.MinMax
import Mathlib.Order.Nat
import SqlExpr.Proofs.Render.Nesting

/-!
# Rendering ends

A rewrite holds operands several times and is mostly larger than the construct in whose place it is
visited. What goes down with every visit is the height, so that renderings end, whatever the sink,
and the way in which a node is rendered from its pieces determines how every expression is
(`Expr.render_ends`).
-/

namespace SqlExpr

/-- Expressions are rendered by `f` from their pieces in order. Writes go to the sink and so do
    visits, with what `f` does to the visited expression. -/
def Sink.IsRendering (sink : Sink ε σ) (f : Expr → EStateM ε σ Unit) : Prop :=
  ∀ e, f e = inOrder ((e.pieces sink.dialect).map fun
    | .write w => sink.write w
    | .visit e' => sink.visit e' (f e'))

namespace Expr

/-! ## Sizes of rewrites -/

/-- The splice is larger than the overlay. -/
private theorem size_lt_emulated (o : Overlay) : o.toExpr.size < o.emulated.size := by
  have hlength : optionSize o.length < 1 + o.effectiveLength.size := by
    unfold Overlay.effectiveLength
    cases o.length with
    | none => exact Nat.lt_add_right _ Nat.one_pos
    | some n => exact Nat.lt_add_of_pos_left Nat.one_pos
  simp only [Overlay.toExpr, Overlay.emulated, Overlay.head, Overlay.tail, sub, add, size, listSize]
  omega

private theorem size_lexicographic {op : Comparator} {left right : List Expr} {e : Expr}
    (h : RowCompare.lexicographic op left right = some e) :
    listSize left + listSize right + 5 * left.length ≤ e.size + 4 := by
  fun_induction RowCompare.lexicographic op left right generalizing e with
  | case1 l r =>
    cases h
    simp only [size, listSize, List.length_cons, List.length_nil]
    omega
  | case2 l left r right hne ih =>
    simp only [Option.bind_eq_bind, Option.bind_eq_some_iff, Option.pure_def,
      Option.some.injEq] at h
    obtain ⟨rest, hrest, rfl⟩ := h
    have hsize := ih hrest
    have hl := l.size_pos
    have hr := r.size_pos
    simp only [or, and, size, listSize, List.length_cons]
    omega
  | case3 => cases h

/-- The rewrite of an ordering of rows with two or more fields is larger than the ordering. -/
private theorem size_lt_ordering {op : Comparator} {left right : List Expr} {e : Expr}
    (h : RowCompare.ordering op left right = some e) (hmore : 2 ≤ left.length) :
    (Expr.rowCompare op left right).size < e.size := by
  unfold RowCompare.ordering at h
  split at h
  · simp only [Option.bind_eq_bind, Option.bind_eq_some_iff] at h
    obtain ⟨tree, htree, h⟩ := h
    have hsize := size_lexicographic htree
    split at h
    · cases h
      simp only [and, size] at *
      omega
    · cases h
      simp only [size]
      omega
  · cases h

/-! ## Visits go down -/

/-- No more visits are under way at any point than the height of the expression. -/
private theorem depth_le_height (d : Dialect) (e : Expr) : e.depth d ≤ e.height := by
  induction e using visit_induction d with
  | node e ih =>
    have hvisited : ∀ n ∈ ((e.pieces d).filterMap Piece.visited?).map (depth d),
        n ≤ e.height - 1 := by
      intro n hn
      obtain ⟨e', he', rfl⟩ := List.mem_map.1 hn
      have hvisit := Piece.mem_filterMap_visited?.1 he'
      have hlt := Nat.lt_of_le_of_lt (ih e' hvisit) (height_lt_of_mem_pieces hvisit)
      exact Nat.le_sub_one_of_lt hlt
    have hdeepest : (((e.pieces d).filterMap Piece.visited?).map (depth d)).foldr max 0 ≤
        e.height - 1 := List.max_le_of_forall_le _ _ hvisited
    have hpos := e.height_pos
    rw [depth_eq]
    omega

/-! ## The equations of rendering -/

section

variable {ε σ : Type} {sink : Sink ε σ} {f : Expr → EStateM ε σ Unit}

theorem isRendering_renderInto (sink : Sink ε σ) : sink.IsRendering fun e => e.renderInto sink := by
  intro e
  refine (renderInto_eq sink e).trans (congrArg Sink.inOrder (List.map_congr_left ?_))
  intro piece _
  cases piece with
  | write | visit => rfl

/-- The rendering of an expression is determined by those of what it visits, and so by the sink
    alone. -/
private theorem eq_renderInto_of_isRendering (hf : sink.IsRendering f) (e : Expr) :
    f e = e.renderInto sink := by
  induction e using visit_induction sink.dialect with
  | node e ih =>
    refine (hf e).trans (Eq.trans ?_ (isRendering_renderInto sink e).symm)
    refine congrArg Sink.inOrder (List.map_congr_left fun piece hpiece => ?_)
    cases piece with
    | write w => rfl
    | visit e' => exact congrArg (sink.visit e') (ih e' hpiece)

private theorem isRendering_iff : sink.IsRendering f ↔ f = fun e => e.renderInto sink := by
  constructor
  · exact fun hf => funext (eq_renderInto_of_isRendering hf)
  · rintro rfl
    exact isRendering_renderInto sink

end

private theorem exists_render {e : Expr} {d : Dialect} {s : Settings}
    (h : ∀ limit ∈ s.maxDepth, e.height ≤ limit.toNat) : ∃ out, e.render d s = .ok out :=
  exists_render_iff.2 fun limit hlimit => Nat.le_trans (depth_le_height d e) (h limit hlimit)

/-- Every visit goes down in height, that of a rewrite too, although the emulation of an overlay is
    always larger than the overlay, and that of an ordering of rows larger than the ordering if
    there are two or more fields. Hence the equations of rendering have one solution for every sink,
    and every expression is rendered without a depth limit, or with one that is not below its
    height. -/
theorem render_ends :
    (∀ (d : Dialect) (e e' : Expr), .visit e' ∈ e.pieces d → e'.height < e.height) ∧
    (∀ (d : Dialect) (e e' : Expr), e.rewrite d = some e' →
      e.pieces d = [.visit e'] ∧ e'.height < e.height) ∧
    (∀ o : Overlay, o.toExpr.size < o.emulated.size) ∧
    (∀ op left right e, RowCompare.ordering op left right = some e → 2 ≤ left.length →
      (Expr.rowCompare op left right).size < e.size) ∧
    (∀ (ε σ : Type) (sink : Sink ε σ) (f : Expr → EStateM ε σ Unit),
      sink.IsRendering f ↔ f = fun e => e.renderInto sink) ∧
    (∀ (e : Expr) (d : Dialect) (s : Settings),
      (∀ limit ∈ s.maxDepth, e.height ≤ limit.toNat) → ∃ out, e.render d s = .ok out) := by
  refine ⟨fun d e e' => height_lt_of_mem_pieces, fun d e e' h => ⟨?_, height_rewrite_lt h⟩,
    size_lt_emulated, fun op left right e => size_lt_ordering,
    fun ε σ sink f => isRendering_iff, fun e d s => exists_render⟩
  rw [pieces, h]

/-- A comparison of rows, one field an overlay, of height 12. Its rewrite is larger and not as high,
    and a limit of 12 visits lets it through. -/
theorem render_ends_derby :
    let text (name : String) : Expr := .column ⟨none, name, .varchar none⟩
    let number (name : String) : Expr := .column ⟨none, name, .integer⟩
    let o : Overlay := ⟨text "s", text "r", number "p", none⟩
    let e : Expr := .rowCompare .gt [o.toExpr, number "a"] [text "t", number "b"]
    ∃ tree, e.rewrite .derby = some tree ∧ .visit tree ∈ e.pieces .derby ∧
      tree.height < e.height ∧ e.size < tree.size ∧ o.toExpr.size < o.emulated.size ∧
      ∃ out, e.render .derby { maxDepth := some 12 } = .ok out := by
  intro text number o e
  obtain ⟨hvisits, hrewrite, hoverlay, hordering, -, hrender⟩ := render_ends
  obtain ⟨tree, htree⟩ : ∃ tree, e.rewrite .derby = some tree := ⟨_, rfl⟩
  have hpieces : .visit tree ∈ e.pieces .derby := by
    rw [(hrewrite .derby e tree htree).1]
    exact List.mem_singleton.2 rfl
  refine ⟨tree, htree, hpieces, hvisits .derby e tree hpieces, ?_, hoverlay o, ?_⟩
  · exact hordering .gt _ _ tree htree (Nat.le_refl 2)
  · refine hrender e .derby _ ?_
    rintro limit ⟨⟩
    decide

end Expr

end SqlExpr
