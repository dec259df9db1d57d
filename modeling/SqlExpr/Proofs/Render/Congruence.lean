-- SUMMARY: Expressions that a sink renders in the same way, from pieces that it takes for the same.
import SqlExpr.Proofs.Expr.Operand
import SqlExpr.Proofs.Render.Pieces
import SqlExpr.Render.Sink

/-!
# Related pieces

Two nodes of one kind fall into the same pieces, but for the expressions that are visited between
them (`Expr.forall₂_nativePieces`). A sink that takes related pieces for the same renders expressions
with related pieces in the same way, through all that is visited (`Sink.renderInto_eq_of_pieces`).
-/

namespace SqlExpr

variable {R : Expr → Expr → Prop} {P : Piece → Piece → Prop}

/-! ## Pieces -/

section

variable (hrefl : ∀ p, P p p) (hvisit : ∀ {x x'}, R x x' → P (.visit x) (.visit x'))

include hrefl hvisit

private theorem Piece.forall₂_visits (separator : List Piece) {es es' : List Expr}
    (h : List.Forall₂ R es es') : List.Forall₂ P (visits separator es) (visits separator es') := by
  cases h with
  | nil => exact .nil
  | cons he hes =>
    rw [visits_cons, visits_cons]
    refine .cons (hvisit he) (List.rel_flatMap hes fun _ _ hx => ?_)
    exact List.rel_append (List.forall₂_same.2 fun p _ => hrefl p) (.cons (hvisit hx) .nil)

/-- Visits between the same pieces in front and behind. -/
private theorem Piece.forall₂_enclosed (front separator back : List Piece) {es es' : List Expr}
    (h : List.Forall₂ R es es') :
    List.Forall₂ P (front ++ visits separator es ++ back)
      (front ++ visits separator es' ++ back) := by
  have hself (pieces : List Piece) : List.Forall₂ P pieces pieces :=
    List.forall₂_same.2 fun p _ => hrefl p
  exact List.rel_append (List.rel_append (hself front) (forall₂_visits hrefl hvisit separator h))
    (hself back)

/-- The pieces of two nodes of one kind are related if the links below them are. Beside its links
    a node looks only at whether the condition of a `NOT` is a chain. -/
theorem Expr.forall₂_nativePieces {e e' : Expr} (hnode : SameNode e e')
    (hlogical : ∀ x x', e = .not x → R x x' → x.isLogical = x'.isLogical) (d : Dialect)
    (hlinks : List.Forall₂ R e.links e'.links) :
    List.Forall₂ P (e.nativePieces d) (e'.nativePieces d) := by
  cases hnode with
  | column | constant => exact .cons (hrefl _) .nil
  | call f args args' =>
    have hargs : List.Forall₂ R args args' := by simpa [links, operands, slots] using hlinks
    simp only [nativePieces]
    split
    · exact Piece.forall₂_enclosed hrefl hvisit _ _ _ hargs
    · exact Piece.forall₂_enclosed hrefl hvisit _ _ _ hargs
  | row fields fields' =>
    have hfields : List.Forall₂ R fields fields' := by simpa [links, operands, slots] using hlinks
    exact Piece.forall₂_enclosed hrefl hvisit _ _ _ hfields
  | logical op l r l' r' => exact Piece.forall₂_enclosed hrefl hvisit _ _ _ hlinks
  | not x x' =>
    have hx : R x x' := by simpa [links, operands, slots] using hlinks
    simp only [nativePieces, hlogical x x' rfl hx]
    split <;> simp [hrefl, hvisit hx]
  | arith op l r l' r' | compare op l r l' r' =>
    obtain ⟨hl, hr⟩ : R l l' ∧ R r r' := by simpa [links, operands, slots] using hlinks
    simp [nativePieces, hrefl, hvisit hl, hvisit hr]
  | overlay s r p s' r' p' n n' =>
    cases n with
    | none =>
      cases n' with
      | none =>
        obtain ⟨hs, hr, hp⟩ : R s s' ∧ R r r' ∧ R p p' := by
          simpa [links, operands, slots] using hlinks
        simp [nativePieces, Overlay.pieces, hrefl, hvisit hs, hvisit hr, hvisit hp]
      | some n' => simp [links, operands, slots] at hlinks
    | some n =>
      cases n' with
      | none => simp [links, operands, slots] at hlinks
      | some n' =>
        obtain ⟨hs, hr, hp, hn⟩ : R s s' ∧ R r r' ∧ R p p' ∧ R n n' := by
          simpa [links, operands, slots] using hlinks
        simp [nativePieces, Overlay.pieces, hrefl, hvisit hs, hvisit hr, hvisit hp, hvisit hn]
  | rowCompare op l r l' r' =>
    obtain ⟨hl, hr⟩ : R (.row l) (.row l') ∧ R (.row r) (.row r') := by
      simpa [links, operands, slots] using hlinks
    simp only [nativePieces, RowCompare.pieces, Row.toExpr]
    split <;> simp [hrefl, hvisit hl, hvisit hr]

end

/-- Where the dialect lacks a construct, the rewrite is all that is visited. -/
theorem Expr.forall₂_pieces (hvisit : ∀ {x x'}, R x x' → P (.visit x) (.visit x')) {d : Dialect}
    {e e' : Expr} (hrewrite : Option.Rel R (e.rewrite d) (e'.rewrite d))
    (hnative : List.Forall₂ P (e.nativePieces d) (e'.nativePieces d)) :
    List.Forall₂ P (e.pieces d) (e'.pieces d) := by
  unfold pieces
  generalize e.rewrite d = x at hrewrite
  generalize e'.rewrite d = x' at hrewrite
  cases hrewrite with
  | some hx => exact .cons (hvisit hx) .nil
  | none => exact hnative

/-! ## Sinks -/

/-- A sink renders expressions with related pieces in the same way, if it takes related pieces for
    the same as soon as it renders what they visit in the same way. -/
theorem Sink.renderInto_eq_of_pieces {ε σ : Type} {sink : Sink ε σ}
    (hpieces : ∀ {e e'}, R e e' → List.Forall₂ P (e.pieces sink.dialect) (e'.pieces sink.dialect))
    (hpiece : ∀ {p p'}, P p p' →
      (∀ x, p = .visit x → ∀ x', R x x' → x.renderInto sink = x'.renderInto sink) →
      sink.renderPiece p = sink.renderPiece p')
    {e e' : Expr} (h : R e e') : e.renderInto sink = e'.renderInto sink := by
  induction e using Expr.visit_induction sink.dialect generalizing e' with
  | node e ih =>
    have hrel : List.Forall₂ (fun p p' => p ∈ e.pieces sink.dialect ∧ P p p')
        (e.pieces sink.dialect) (e'.pieces sink.dialect) :=
      (List.forall₂_and_left _ _).2 ⟨fun _ hp => hp, hpieces h⟩
    have hmap : List.Forall₂ Eq ((e.pieces sink.dialect).map sink.renderPiece)
        ((e'.pieces sink.dialect).map sink.renderPiece) := by
      refine List.forall₂_map_left_iff.2 (List.forall₂_map_right_iff.2 (hrel.imp ?_))
      rintro p p' ⟨hmem, hp⟩
      exact hpiece hp fun x hx x' => ih x (hx ▸ hmem)
    rw [List.forall₂_eq_eq_eq] at hmap
    rw [Expr.renderInto_eq, Expr.renderInto_eq, hmap]

end SqlExpr
