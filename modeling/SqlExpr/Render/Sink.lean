-- SUMMARY: What expressions are rendered into, the rendering into any sink, and what a rendering visits.
import SqlExpr.Render.Height

/-!
# Sinks

A sink takes writes and decides what happens around each visited expression. An
expression is rendered by handing its pieces to the sink in order; the first failure
ends the rendering. The state of the sink is kept on failure.
-/

namespace SqlExpr

/-- A sink with failures `ε` and state `σ`, for one dialect. -/
structure Sink (ε σ : Type) where
  dialect : Dialect
  write : Write → EStateM ε σ Unit
  /-- What happens at a visit of an expression, given the rendering of that expression. -/
  visit : Expr → EStateM ε σ Unit → EStateM ε σ Unit

/-- Do things in order, up to the first failure. -/
def Sink.inOrder : List (EStateM ε σ Unit) → EStateM ε σ Unit
  | [] => pure ()
  | x :: xs => do x; inOrder xs

namespace Expr

/-- Render the expression itself into a sink. What it visits is rendered through the sink. -/
def renderInto (sink : Sink ε σ) (e : Expr) : EStateM ε σ Unit :=
  Sink.inOrder <| (e.pieces sink.dialect).attach.map fun
    | ⟨.write w, _⟩ => sink.write w
    | ⟨.visit e', _⟩ => sink.visit e' (e'.renderInto sink)
termination_by e.height
decreasing_by exact height_lt_of_mem_pieces ‹_›

end Expr

namespace Sink

/-- Render one piece into the sink. -/
def renderPiece (sink : Sink ε σ) : Piece → EStateM ε σ Unit
  | .write w => sink.write w
  | .visit e => sink.visit e (e.renderInto sink)

end Sink

/-- Rendering an expression hands its pieces to the sink in order. -/
theorem Expr.renderInto_eq (sink : Sink ε σ) (e : Expr) :
    e.renderInto sink = Sink.inOrder ((e.pieces sink.dialect).map sink.renderPiece) := by
  rw [renderInto]
  conv => rhs; rw [← List.attach_map_subtype_val (e.pieces sink.dialect), List.map_map]
  congr 2
  funext ⟨p, _⟩
  cases p <;> rfl

/-! ## Visits

A rendering visits the expression itself and what its pieces visit in turn. Where the dialect lacks
a construct, the rewrite is visited behind it and so is all that the rewrite holds, further
rewrites included. -/

/-- Every expression that rendering the expression visits, in order, the expression itself first. -/
def Expr.visited (d : Dialect) (e : Expr) : List Expr :=
  e :: (e.pieces d).attach.flatMap fun
    | ⟨.write _, _⟩ => []
    | ⟨.visit e', _⟩ => e'.visited d
termination_by e.height
decreasing_by exact height_lt_of_mem_pieces ‹_›

/-- What rendering one piece visits. -/
def Piece.visited (d : Dialect) : Piece → List Expr
  | .write _ => []
  | .visit e => e.visited d

theorem Expr.visited_eq (d : Dialect) (e : Expr) :
    e.visited d = e :: (e.pieces d).flatMap (Piece.visited d) := by
  rw [visited]
  conv => rhs; rw [← List.attach_map_subtype_val (e.pieces d), List.flatMap_map]
  congr 2
  funext ⟨p, _⟩
  cases p <;> rfl

/-- The sink that takes every write and lists the expressions it is to visit. It has no failures. -/
def Sink.visitor (d : Dialect) : Sink Empty (List Expr) where
  dialect := d
  write _ := pure ()
  visit e body := fun log => body (log ++ [e])

end SqlExpr
