-- SUMMARY: What a rendering writes as it stands is what the dialect has.
import SqlExpr.Proofs.Expr.Obtainable
import SqlExpr.Proofs.Render.Visits
import SqlExpr.Proofs.Row.Placement

/-!
# Constructs that the dialect has

A row comparison has no rewrite where the dialect can compare rows, and none either where the rows
have no fields or not as many on both sides. The renderer does not tell the two apart. But nothing
that was built compares such rows, and neither does anything that a rendering visits. So the
dialect has whatever is written on it as it stands (`Expr.support_of_visited`).
-/

namespace SqlExpr

/-! ## Rewrites -/

theorem Overlay.rewrite_eq_none_iff {o : Overlay} {s : Support} :
    o.rewrite s = none ↔ s = .native := by
  cases s <;> simp [Overlay.rewrite]

namespace Expr

variable {d : Dialect}

/-! ## Nodes -/

/-- The construct that the node is, if it is one that not every dialect has. -/
def construct? : Expr → Option Construct
  | .overlay _ _ _ _ => some .overlay
  | .rowCompare op _ _ => some op.construct
  | _ => none

theorem construct_ne_overlay (op : Comparator) : op.construct ≠ .overlay := by
  cases op <;> decide

/-- A construct without a rewrite is one that the dialect has. -/
theorem support_of_native {x : Expr} (hx : Paired x) (hnative : x.rewrite d = none) :
    ∀ c ∈ x.construct?, d.support c = .native := by
  rintro c hc
  cases x with
  | overlay source replacement start length =>
    cases hc
    exact Overlay.rewrite_eq_none_iff.1 hnative
  | rowCompare op left right =>
    cases hc
    cases hsupport : d.support op.construct with
    | native => rfl
    | alternate => exact absurd (Dialect.support_eq_alternate hsupport) (construct_ne_overlay op)
    | emulated =>
      obtain ⟨e, he⟩ := RowCompare.exists_rewrite (c := ⟨op, ⟨left⟩, ⟨right⟩⟩) hx.1 hx.2
      simp [rewrite, hsupport, he] at hnative
  | _ => cases hc

private theorem paired_of_obtainable {e : Expr} (h : Obtainable e) (hrow : HoldsNoRow e) :
    Paired e := by
  cases e with
  | rowCompare op left right => exact h.rowCompare_fields
  | _ => exact hrow

/-- The keyword is written for overlays only. -/
private theorem ne_keyword_overlay {x : Expr} (h : x.construct? ≠ some .overlay) :
    ∀ p ∈ x.nativePieces d, p ≠ .keyword .overlay := by
  refine forall_mem_nativePieces (fun _ => nofun) (fun _ _ => nofun) ?_
  cases x with
  | overlay source replacement start length => exact absurd rfl h
  | logical op l r => cases op <;> simp [words, Piece.keyword, Connective.keyword]
  | _ => simp [words, Piece.keyword]

/-- The keyword is written only where the dialect has overlays. -/
private theorem support_of_keyword_overlay {x : Expr} (hnative : x.rewrite d = none)
    (h : .keyword .overlay ∈ x.nativePieces d) : d.support .overlay = .native := by
  have hoverlay : x.construct? = some .overlay := by
    by_contra hne
    exact ne_keyword_overlay hne _ h rfl
  cases x with
  | overlay source replacement start length => exact Overlay.rewrite_eq_none_iff.1 hnative
  | rowCompare op left right => exact absurd (Option.some.inj hoverlay) (construct_ne_overlay op)
  | _ => cases hoverlay

/-! ## Visits -/

/-- Only a row comparison visits a row. -/
private theorem isRow_of_mem_links {e x : Expr} (h : e.Everywhere Paired) (hx : x ∈ e.links)
    (hrow : x.isRow = true) : ∃ op left right, e = .rowCompare op left right := by
  have hfalse (hx : x.isRow = false) : False := Bool.false_ne_true (hx.symm.trans hrow)
  cases e with
  | rowCompare op left right => exact ⟨op, left, right, rfl⟩
  | logical op l r =>
    refine (hfalse (isRow_of_mem_chain ?_ h rfl hx)).elim
    intro op l r hnode
    exact ⟨hnode l (by simp [operands, slots]), hnode r (by simp [operands, slots])⟩
  | _ => exact (hfalse (h.self x hx)).elim

/-- Everything in the expression is paired, and if it is a row, the dialect compares rows. -/
structure Writable (d : Dialect) (e : Expr) : Prop where
  paired : e.Everywhere Paired
  row : e.isRow = true → d.support .rowEquality = .native ∨ d.support .rowOrdering = .native

theorem Writable.of_visit {e x : Expr} (h : Writable d e) (hx : .visit x ∈ e.pieces d) :
    Writable d x := by
  unfold pieces at hx
  split at hx
  · rename_i e' hrewrite
    cases List.mem_singleton.1 hx
    refine ⟨paired_rewrite hrewrite h.paired, fun hrow => ?_⟩
    exact absurd ((isRow_of_rewrite hrewrite).symm.trans hrow) Bool.false_ne_true
  · rename_i hnative
    have hlink := visit_mem_nativePieces.1 hx
    refine ⟨h.paired.of_mem_links hlink, fun hrow => ?_⟩
    obtain ⟨op, left, right, rfl⟩ := isRow_of_mem_links h.paired hlink hrow
    have hsupport := support_of_native h.paired.self hnative _ rfl
    unfold Comparator.construct at hsupport
    split at hsupport
    · exact .inl hsupport
    · exact .inr hsupport

private theorem writable_of_obtainable {e : Expr} (h : Obtainable e) (hrows : RowsCompared e) :
    Writable d e := by
  refine ⟨fun x hx => paired_of_obtainable (h.everywhere x hx) (hrows.below x hx), fun hrow => ?_⟩
  exact absurd (hrows.isRow.symm.trans hrow) Bool.false_ne_true

/-- Every row comparison that can be obtained has a rewrite for the dialects that need one.
    Rendering an obtainable expression whose rows all stand in comparisons visits no construct that
    is written as it is and that the dialect lacks, at no depth and in no rewrite. `OVERLAY` is
    written only on a dialect that has it, and a row only on one that compares rows. -/
theorem support_of_visited :
    (∀ c : RowCompare, Obtainable c.toExpr → ∃ e, c.rewrite .emulated = some e) ∧
    (∀ e d, Obtainable e → RowsCompared e → ∃ visited,
      (Sink.visitor d).visit e (e.renderInto (Sink.visitor d)) [] = .ok () visited ∧
      (∀ x ∈ visited, x.rewrite d = none → ∀ c ∈ x.construct?, d.support c = .native) ∧
      (.keyword .overlay ∈ e.writes d → d.support .overlay = .native) ∧
      (∀ x ∈ visited, x.isRow = true →
        d.support .rowEquality = .native ∨ d.support .rowOrdering = .native)) := by
  constructor
  · intro c hc
    obtain ⟨hne, hlength⟩ := hc.rowCompare_fields
    exact RowCompare.exists_rewrite hne hlength
  · intro e d he hrows
    have hwritable : ∀ x ∈ e.visited d, Writable d x := fun x hx =>
      of_mem_visited (fun _ _ => Writable.of_visit) (writable_of_obtainable he hrows) hx
    refine ⟨e.visited d, Sink.visitor_eq_ok d e [], ?_, ?_, ?_⟩
    · intro x hx hnative
      exact support_of_native (hwritable x hx).paired.self hnative
    · intro hwrite
      obtain ⟨x, -, hnative, hpiece⟩ := mem_writes_iff.1 hwrite
      exact support_of_keyword_overlay hnative hpiece
    · intro x hx
      exact (hwritable x hx).row

/-- An overlay in an overlay in a comparison of rows. Derby has none of these constructs, so it
    visits no row, and each of the constructs only to visit its rewrite. -/
theorem support_of_visited_derby :
    let text (name : String) : Expr := .column ⟨none, name, .varchar none⟩
    let number (name : String) : Expr := .column ⟨none, name, .integer⟩
    let inner : Overlay := ⟨text "s", text "r", number "p", none⟩
    let outer : Overlay := ⟨inner.toExpr, text "t", number "q", some (number "n")⟩
    let c : RowCompare := ⟨.lt, ⟨[outer.toExpr, number "m"]⟩, ⟨[text "u", number "k"]⟩⟩
    Obtainable c.toExpr ∧ RowsCompared c.toExpr ∧ ∃ visited,
      (Sink.visitor .derby).visit c.toExpr (c.toExpr.renderInto (Sink.visitor .derby)) [] =
        .ok () visited ∧
      (∀ x ∈ visited, x.isRow = false) ∧
      ∀ x ∈ visited, ∀ construct ∈ x.construct?, (x.rewrite .derby).isSome = true := by
  intro text number inner outer c
  have hpair {l r : Expr} (hl : Obtainable l) (hr : Obtainable r) : Obtainable (.row [l, r]) := by
    refine @Obtainable.row [l, r] ⟨[l, r]⟩ ?_ rfl
    intro x hx
    rcases List.mem_pair.1 hx with rfl | rfl
    · exact hl
    · exact hr
  have hgiven {x : Expr} (hx : Obtainable x) : ∀ a ∈ some x, Obtainable a := by
    rintro a ⟨⟩
    exact hx
  have hcolumn (x : Column) : ∀ a ∈ some (.column x), Obtainable a := hgiven (.column x)
  have hinner : Obtainable inner.toExpr :=
    @Obtainable.overlay (text "s") (text "r") (number "p") none inner (hcolumn _) (hcolumn _)
      (hcolumn _) nofun rfl
  have houter : Obtainable outer.toExpr :=
    @Obtainable.overlay inner.toExpr (text "t") (number "q") (number "n") outer (hgiven hinner)
      (hcolumn _) (hcolumn _) (hcolumn _) rfl
  have hc : Obtainable c.toExpr :=
    .rowCompare (hpair houter (.column _)) (hpair (.column _) (.column _)) rfl
  have hrows : RowsCompared c.toExpr := by
    refine ⟨rfl, ?_⟩
    simp [c, outer, inner, text, number, RowCompare.toExpr, Overlay.toExpr, HoldsNoRow, operands,
      slots, isRow]
  have hderby (construct : Construct) : Dialect.support .derby construct = .emulated := by
    cases construct <;> rfl
  have hlacks (construct : Construct) : Dialect.support .derby construct ≠ .native := by
    simp [hderby]
  obtain ⟨visited, hrun, hnative, -, hrow⟩ := support_of_visited.2 c.toExpr .derby hc hrows
  refine ⟨hc, hrows, visited, hrun, ?_, ?_⟩
  · intro x hx
    refine Bool.eq_false_iff.2 fun hisRow => ?_
    rcases hrow x hx hisRow with h | h
    · exact hlacks _ h
    · exact hlacks _ h
  · intro x hx construct hconstruct
    refine Option.isSome_iff_ne_none.2 fun hnone => ?_
    exact hlacks construct (hnative x hx hnone construct hconstruct)

end Expr
end SqlExpr
