-- SUMMARY: The pieces into which each node falls on a dialect: its own writes and the expressions between them.
import SqlExpr.Overlay.Rewrite
import SqlExpr.Render.Write
import SqlExpr.Row.Rewrite

/-!
# Pieces

`Expr.pieces` gives for one node what it writes itself and where its operands come in.
A node that the dialect lacks consists of its rewrite alone.
-/

namespace SqlExpr

/-- A part of a node: a write of its own, or an expression rendered at this place. -/
inductive Piece
  | write (w : Write)
  | visit (e : Expr)
  deriving Repr

namespace Piece

def sql (text : String) : Piece := .write (.sql text)

def keyword (k : Keyword) : Piece := .write (.keyword k)

/-- Visits of several expressions with the same pieces between each two of them. -/
def visits (separator : List Piece) (es : List Expr) : List Piece :=
  separator.intercalate (es.map fun e => [.visit e])

end Piece

/-- What replaces the expression on a dialect, for constructs that the dialect lacks. -/
def Expr.rewrite (d : Dialect) : Expr → Option Expr
  | .overlay source replacement start length =>
    (Overlay.mk source replacement start length).rewrite (d.support .overlay)
  | .rowCompare op left right =>
    (RowCompare.mk op ⟨left⟩ ⟨right⟩).rewrite (d.support op.construct)
  | _ => none

/-- How a dialect that has the construct writes an overlay. -/
def Overlay.pieces (o : Overlay) : List Piece :=
  [.keyword .overlay, .sql "(", .visit o.source, .sql " ", .keyword .placing, .sql " ",
    .visit o.replacement, .sql " ", .keyword .from, .sql " ", .visit o.start] ++
  (match o.length with
    | some length => [.sql " ", .keyword .for, .sql " ", .visit length]
    | none => []) ++
  [.sql ")"]

/-- How a dialect that has the construct writes a row comparison. -/
def RowCompare.pieces (d : Dialect) (c : RowCompare) : List Piece :=
  [.visit c.left.toExpr, .sql " ", .sql c.op.symbol, .sql " "] ++
  if d.rightRowNeedsParentheses then [.sql "(", .visit c.right.toExpr, .sql ")"]
  else [.visit c.right.toExpr]

/-- The pieces of a node that the dialect can write. Parentheses stand around arithmetic,
    rows, chains of `AND` or `OR`, and the condition of a `NOT` unless it brings its own. -/
def Expr.nativePieces (d : Dialect) : Expr → List Piece
  | .column c => [.write (.identifier c)]
  | .constant c => [.write (.value c)]
  | .call f args =>
    match d.callStyle f with
    | .operator => [.sql "("] ++ Piece.visits [.sql " || "] args ++ [.sql ")"]
    | .function =>
      [.write (.functionName f), .sql "("] ++ Piece.visits [.sql ", "] args ++ [.sql ")"]
  | .arith op l r =>
    [.sql "(", .visit l, .sql " ", .sql op.symbol, .sql " ", .visit r, .sql ")"]
  | .compare op l r => [.visit l, .sql " ", .sql op.symbol, .sql " ", .visit r]
  | .logical op l r =>
    [.sql "("] ++
    Piece.visits [.sql " ", .keyword op.keyword, .sql " "] ((Expr.logical op l r).chain op) ++
    [.sql ")"]
  | .not e =>
    if e.isLogical then [.keyword .not, .sql " ", .visit e]
    else [.keyword .not, .sql " ", .sql "(", .visit e, .sql ")"]
  | .row fields => [.sql "("] ++ Piece.visits [.sql ", "] fields ++ [.sql ")"]
  | .overlay source replacement start length =>
    (Overlay.mk source replacement start length).pieces
  | .rowCompare op left right => (RowCompare.mk op ⟨left⟩ ⟨right⟩).pieces d

/-- The pieces of a node on a dialect. -/
def Expr.pieces (d : Dialect) (e : Expr) : List Piece :=
  match e.rewrite d with
  | some e' => [.visit e']
  | none => e.nativePieces d

end SqlExpr
