-- SUMMARY: The writes that are made before a rendering fails at the depth limit.
import SqlExpr.Render.Renderer
import SqlExpr.Render.Walk

/-!
# Cut-off renderings

A rendering that fails at the depth limit leaves the writes it has made. These are the writes of the
expression up to the first visit that goes too deep, a part of it that only the expression, the
dialect and the limit determine.
-/

namespace SqlExpr

/-- The writes of pieces up to the first expression that nests deeper than `room`, and of that one
    the writes that `cut` gives. -/
def Piece.writesWithin (d : Dialect) (room : Nat) (cut : Expr → List Write) :
    List Piece → List Write
  | [] => []
  | .write w :: pieces => w :: writesWithin d room cut pieces
  | .visit e :: pieces =>
    if e.depth d ≤ room then e.writes d ++ writesWithin d room cut pieces else cut e

/-- The writes that a visit of the expression makes where `room` visits are allowed inside of each
    other. -/
def Expr.writesWithin (d : Dialect) : (room : Nat) → Expr → List Write
  | 0, _ => []
  | room + 1, e => Piece.writesWithin d room (writesWithin d room) (e.pieces d)

namespace Renderer.Step

/-- Every write of the step. -/
def writes (d : Dialect) : Step → List Write
  | .visit e | .render e => e.writes d
  | .write w => [w]

/-- How many visits are under way at the deepest point of the step. -/
def depth (d : Dialect) : Step → Nat
  | .visit e => e.depth d
  | .render e => e.depth d - 1
  | .write _ => 0

/-- The writes that the step makes under a depth limit. -/
def made (d : Dialect) (limit : Option UInt64) (step : Step) : List Write :=
  match limit, step with
  | none, step => step.writes d
  | some limit, .visit e => e.writesWithin d limit.toNat
  | some limit, .render e => e.writesWithin d (limit.toNat + 1)
  | some _, .write w => [w]

/-- The failure of the step under a depth limit, if it fails. -/
def failure? (d : Dialect) (limit : Option UInt64) (step : Step) : Option RenderError :=
  (limit.filter (·.toNat < step.depth d)).map .depthExceeded

end Renderer.Step

/-- The renderer under another depth limit. -/
def Renderer.limitedTo (r : Renderer) (limit : Option UInt64) : Renderer :=
  { r with settings := { r.settings with maxDepth := limit } }

end SqlExpr
