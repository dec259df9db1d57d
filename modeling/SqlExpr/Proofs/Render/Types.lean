-- SUMMARY: Types of columns and constants do not show in what is rendered.
import SqlExpr.Proofs.Expr.EqualButTypes
import SqlExpr.Proofs.Render.Congruence
import SqlExpr.Render.Renderer

/-!
# Types in a rendering

The pieces of two expressions that are equal but for types are so too, in order and one by one. A
sink that `IgnoresTypes` takes them for the same, and a renderer is such a sink
(`Expr.render_eq_of_equalButTypes`).
-/

namespace SqlExpr

open SqlExpr.Expr (EqualButTypes)

/-- The two are the same write but for the type of what is written, or visits of expressions that
    are equal but for types. -/
inductive Piece.EqualButTypes : Piece → Piece → Prop
  | refl (p : Piece) : EqualButTypes p p
  | identifier (c : Column) (t : DataType) :
    EqualButTypes (.write (.identifier c)) (.write (.identifier { c with dataType := t }))
  | value (c : Constant) (t : DataType) :
    EqualButTypes (.write (.value c)) (.write (.value { c with dataType := t }))
  | visit {e e' : Expr} (h : e.EqualButTypes e') : EqualButTypes (.visit e) (.visit e')

/-- What the sink does about a write or a visit does not depend on types, other than through
    overlays. -/
structure Sink.IgnoresTypes (sink : Sink ε σ) : Prop where
  identifier : ∀ c t, sink.write (.identifier { c with dataType := t }) = sink.write (.identifier c)
  value : ∀ c t, sink.write (.value { c with dataType := t }) = sink.write (.value c)
  visit : ∀ e e', e.EqualButTypes e' → sink.visit e = sink.visit e'

/-! ## Pieces -/

namespace Expr.EqualButTypes

variable {e e' : Expr}

/-- Away from columns and constants the nodes are of one kind, with links that are equal but for
    types. -/
private theorem nativePieces (h : EqualButTypes e e') (d : Dialect) :
    List.Forall₂ Piece.EqualButTypes (e.nativePieces d) (e'.nativePieces d) := by
  have hnode {e e' : Expr} (hnode : SameNode e e')
      (hlinks : List.Forall₂ EqualButTypes e.links e'.links) :
      List.Forall₂ Piece.EqualButTypes (e.nativePieces d) (e'.nativePieces d) :=
    Expr.forall₂_nativePieces .refl .visit hnode (fun _ _ _ => isLogical) d hlinks
  cases h with
  | column c t => exact .cons (.identifier c t) .nil
  | constant c t => exact .cons (.value c t) .nil
  | call f hargs => exact hnode (.call ..) (by simpa [links, operands, slots] using hargs)
  | row hfields => exact hnode (.row ..) (by simpa [links, operands, slots] using hfields)
  | logical op hl hr => exact hnode (.logical ..) (EqualButTypes.chain op (.logical op hl hr))
  | not he => exact hnode (.not ..) (.cons he .nil)
  | arith op hl hr => exact hnode (.arith ..) (.cons hl (.cons hr .nil))
  | compare op hl hr => exact hnode (.compare ..) (.cons hl (.cons hr .nil))
  | overlay hs hr hp hn hbinary =>
    refine hnode (.overlay ..) (.cons hs (.cons hr (.cons hp ?_)))
    cases hn with
    | none => exact .nil
    | some hn => exact .cons hn .nil
  | rowCompare op hleft hright =>
    exact hnode (.rowCompare ..) (.cons (.row hleft) (.cons (.row hright) .nil))

theorem pieces (h : EqualButTypes e e') (d : Dialect) :
    List.Forall₂ Piece.EqualButTypes (e.pieces d) (e'.pieces d) :=
  Expr.forall₂_pieces .visit (h.rewrite d) (h.nativePieces d)

end Expr.EqualButTypes

/-! ## Renderings -/

/-- A sink that ignores types is handed the same rendering for expressions that are equal but for
    types. -/
theorem Sink.IgnoresTypes.renderInto_eq {ε σ : Type} {sink : Sink ε σ} (hsink : sink.IgnoresTypes)
    {e e' : Expr} (h : e.EqualButTypes e') : e.renderInto sink = e'.renderInto sink := by
  refine sink.renderInto_eq_of_pieces (fun h => h.pieces sink.dialect) ?_ h
  intro p p' hp hvisit
  cases hp with
  | refl => rfl
  | identifier c t => exact (hsink.identifier c t).symm
  | value c t => exact (hsink.value c t).symm
  | @visit x x' hx => simp only [Sink.renderPiece, hsink.visit x x' hx, hvisit x rfl x' hx]

private theorem Renderer.ignoresTypes_sink (d : Dialect) : (Renderer.sink d).IgnoresTypes where
  identifier _ _ := rfl
  value _ _ := rfl
  visit _ _ _ := rfl

private theorem Renderer.visit_eq_of_equalButTypes {e e' : Expr} (h : e.EqualButTypes e')
    (r : Renderer) : Renderer.visit e r = Renderer.visit e' r := by
  unfold Renderer.visit
  rw [(Renderer.ignoresTypes_sink r.dialect).renderInto_eq h]

/-! ## Row comparisons -/

private theorem Expr.SameButType.equalButTypes {e e' : Expr} (h : SameButType e e') :
    e.EqualButTypes e' := by
  cases h with
  | refl => exact .refl e
  | constant c t => exact .constant c t

/-- A comparison of rows is equal but for types to a comparison of the fields that were given. -/
private theorem RowCompare.equalButTypes_of_new {op : Comparator} {l r : Row} {c : RowCompare}
    (h : new op l r = .ok c) : (Expr.rowCompare op l.fields r.fields).EqualButTypes c.toExpr := by
  obtain ⟨hleft, hright⟩ := sameButType_of_new h
  rw [toExpr, op_of_new h]
  exact .rowCompare op (hleft.imp fun _ _ => Expr.SameButType.equalButTypes)
    (hright.imp fun _ _ => Expr.SameButType.equalButTypes)

namespace Expr

/-- Two expressions that differ in data types alone are rendered in the same way, if overlays at the
    same place splice the same units: any renderer ends in the same state, and fails in the same
    way if it fails. In particular the types that the constants of a row comparison take do not
    show in what it is rendered to. -/
theorem render_eq_of_equalButTypes :
    (∀ e e' : Expr, e.EqualButTypes e' → (∀ r, Renderer.visit e r = Renderer.visit e' r) ∧
      ∀ d s, e.render d s = e'.render d s) ∧
    (∀ op l r c, RowCompare.new op l r = .ok c →
      ∀ d s, c.toExpr.render d s = (Expr.rowCompare op l.fields r.fields).render d s) := by
  have hrender {e e' : Expr} (h : e.EqualButTypes e') (d : Dialect) (s : Settings) :
      e.render d s = e'.render d s := by
    unfold render
    rw [Renderer.visit_eq_of_equalButTypes h]
  constructor
  · intro e e' h
    exact ⟨Renderer.visit_eq_of_equalButTypes h, hrender h⟩
  · intro op l r c h d s
    exact (hrender (RowCompare.equalButTypes_of_new h) d s).symm

/-- An overlay looks the same if its source has no type and the position another one, as long as the
    replacement is text. So does a comparison in which a `NULL` and a number took the types of the
    columns that they are compared with. -/
theorem render_eq_of_equalButTypes_sqlite :
    let overlay (t u : DataType) : Expr :=
      .overlay (.column ⟨none, "s", t⟩) (.bind (.text "x")) (.constant ⟨.int 2, u, false⟩) none
    let l : Row := ⟨[.null .unknown, .bind (.int 1)]⟩
    let r : Row := ⟨[.column ⟨none, "n", .integer⟩, .column ⟨none, "x", .double⟩]⟩
    let c : RowCompare := ⟨.lt, ⟨[.null .integer, .constant ⟨.int 1, .double, false⟩]⟩, r⟩
    (overlay (.varchar none) .integer).EqualButTypes (overlay .unknown .double) ∧
      (overlay (.varchar none) .integer).render .sqlite =
        (overlay .unknown .double).render .sqlite ∧
      RowCompare.new .lt l r = .ok c ∧
      c.toExpr.render .derby = (Expr.rowCompare .lt l.fields r.fields).render .derby := by
  intro overlay l r c
  have hoverlay : (overlay (.varchar none) .integer).EqualButTypes (overlay .unknown .double) :=
    .overlay (.column _ _) (.refl _) (.constant _ _) .none rfl
  obtain ⟨htypes, hcompare⟩ := render_eq_of_equalButTypes
  exact ⟨hoverlay, (htypes _ _ hoverlay).2 .sqlite {}, rfl, hcompare .lt l r c rfl .derby {}⟩

end Expr

end SqlExpr
