-- SUMMARY: What holds of everything that a rendering visits.
import SqlExpr.Proofs.Render.Pieces
import SqlExpr.Render.Sink

/-!
# What a rendering visits

`Expr.visited` lists the visits of a rendering (`Sink.visitor_eq_ok`). A property that every visit
hands on from the visiting node holds of all of them (`Expr.of_mem_visited`), and each write is made
by one of them (`Expr.mem_writes_iff`).
-/

namespace SqlExpr

variable {d : Dialect}

/-! ## The list of visits -/

namespace Sink

private theorem inOrder_visitor {pieces : List Piece}
    (h : ∀ e, .visit e ∈ pieces → ∀ log,
      (visitor d).visit e (e.renderInto (visitor d)) log = .ok () (log ++ e.visited d))
    (log : List Expr) :
    inOrder (pieces.map (visitor d).renderPiece) log =
      .ok () (log ++ pieces.flatMap (Piece.visited d)) := by
  induction pieces generalizing log with
  | nil => exact congrArg (EStateM.Result.ok ()) (List.append_nil log).symm
  | cons piece pieces ih =>
    have hpiece : (visitor d).renderPiece piece log = .ok () (log ++ piece.visited d) := by
      cases piece with
      | write w => exact congrArg (EStateM.Result.ok ()) (List.append_nil log).symm
      | visit e => exact h e List.mem_cons_self log
    have hrest := ih (fun e he => h e (List.mem_cons_of_mem _ he)) (log ++ piece.visited d)
    simp only [List.map_cons, inOrder, bind, EStateM.bind, hpiece, hrest, List.flatMap_cons,
      List.append_assoc]

/-- Visiting an expression lists what `Expr.visited` does, each visit when it begins. -/
theorem visitor_eq_ok (d : Dialect) (e : Expr) (log : List Expr) :
    (visitor d).visit e (e.renderInto (visitor d)) log = .ok () (log ++ e.visited d) := by
  induction e using Expr.visit_induction d generalizing log with
  | node e ih =>
    calc (visitor d).visit e (e.renderInto (visitor d)) log
        = inOrder ((e.pieces d).map (visitor d).renderPiece) (log ++ [e]) :=
          congrFun (Expr.renderInto_eq (visitor d) e) _
      _ = .ok () (log ++ e.visited d) := by
          rw [inOrder_visitor ih, Expr.visited_eq, List.append_assoc, List.singleton_append]

end Sink

namespace Expr

/-! ## Properties of visits -/

theorem mem_visited_iff {e x : Expr} :
    x ∈ e.visited d ↔ x = e ∨ ∃ e', .visit e' ∈ e.pieces d ∧ x ∈ e'.visited d := by
  rw [visited_eq, List.mem_cons, List.mem_flatMap]
  refine or_congr_right ⟨?_, fun ⟨e', h, hx⟩ => ⟨.visit e', h, hx⟩⟩
  rintro ⟨w | e', h, hx⟩
  · cases hx
  · exact ⟨e', h, hx⟩

/-- What holds of an expression, and of whatever a node visits if it holds of the node, holds of
    everything that is visited. -/
theorem of_mem_visited {P : Expr → Prop}
    (hstep : ∀ e x, P e → .visit x ∈ e.pieces d → P x) {e x : Expr} (h : P e)
    (hx : x ∈ e.visited d) : P x := by
  induction e using visit_induction d with
  | node e ih =>
    rcases mem_visited_iff.1 hx with rfl | ⟨e', he', hx⟩
    · exact h
    · exact ih e' he' (hstep e e' h he') hx

private theorem write_mem_pieces_iff {e : Expr} {w : Write} :
    .write w ∈ e.pieces d ↔ e.rewrite d = none ∧ .write w ∈ e.nativePieces d := by
  unfold pieces
  cases e.rewrite d <;> simp

/-- Each write is one of a visited expression that is written as it is. -/
theorem mem_writes_iff {e : Expr} {w : Write} :
    w ∈ e.writes d ↔ ∃ x ∈ e.visited d, x.rewrite d = none ∧ .write w ∈ x.nativePieces d := by
  simp only [← write_mem_pieces_iff]
  induction e using visit_induction d with
  | node e ih =>
    rw [writes_eq, List.mem_flatMap]
    constructor
    · rintro ⟨w' | e', hpiece, hw⟩
      · obtain rfl := List.mem_singleton.1 hw
        exact ⟨e, mem_visited_iff.2 (.inl rfl), hpiece⟩
      · obtain ⟨x, hx, hwrite⟩ := (ih e' hpiece).1 hw
        exact ⟨x, mem_visited_iff.2 (.inr ⟨e', hpiece, hx⟩), hwrite⟩
    · rintro ⟨x, hx, hwrite⟩
      rcases mem_visited_iff.1 hx with rfl | ⟨e', he', hx⟩
      · exact ⟨.write w, hwrite, List.mem_singleton.2 rfl⟩
      · exact ⟨.visit e', he', (ih e' he').2 ⟨x, hx, hwrite⟩⟩

end Expr

end SqlExpr
