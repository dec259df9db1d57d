-- SUMMARY: The tokens of a rendering, node by node.
import SqlExpr.Render.Walk

/-!
# Tokens

A reader of SQL takes the writes of a rendering for tokens; white space is none. The tokens
of an expression are those of its rewrite where the dialect rewrites it, and otherwise
there is one equation for each kind of node.
-/

namespace SqlExpr

/-- A token of SQL. -/
inductive Token
  | lparen
  | rparen
  | comma
  | compare (op : Comparator)
  | arith (op : ArithOp)
  /-- The operator `||`. -/
  | concat
  | keyword (k : Keyword)
  | function (f : Builtin)
  | column (c : Column)
  | constant (c : Constant)
  /-- Text that no reader knows. -/
  | unknown (text : String)
  deriving DecidableEq, Repr

/-! ## Writes -/

/-- The tokens of a text. -/
def Token.ofText : String → List Token
  | " " => []
  | "(" => [.lparen]
  | ")" => [.rparen]
  | ", " => [.comma]
  | " || " => [.concat]
  | "=" => [.compare .eq]
  | "<>" => [.compare .ne]
  | ">" => [.compare .gt]
  | ">=" => [.compare .ge]
  | "<" => [.compare .lt]
  | "<=" => [.compare .le]
  | "+" => [.arith .add]
  | "-" => [.arith .sub]
  | text => [.unknown text]

@[simp] theorem Token.ofText_comparator (op : Comparator) :
    Token.ofText op.symbol = [.compare op] := by
  cases op <;> rfl

@[simp] theorem Token.ofText_arith (op : ArithOp) : Token.ofText op.symbol = [.arith op] := by
  cases op <;> rfl

/-- The tokens of a write. -/
def Write.tokens : Write → List Token
  | .keyword k => [.keyword k]
  | .sql text => Token.ofText text
  | .functionName f => [.function f]
  | .identifier c => [.column c]
  | .value c => [.constant c]

namespace Expr

variable {d : Dialect}

/-- The tokens of an expression on a dialect. -/
def tokens (d : Dialect) (e : Expr) : List Token := (e.writes d).flatMap Write.tokens

/-- The tokens of one piece. -/
def pieceTokens (d : Dialect) : Piece → List Token
  | .write w => w.tokens
  | .visit e => e.tokens d

theorem tokens_eq (d : Dialect) (e : Expr) :
    e.tokens d = (e.pieces d).flatMap (pieceTokens d) := by
  rw [tokens, writes_eq, List.flatMap_assoc]
  congr 1
  funext p
  cases p with
  | write w => simp [Piece.writes, pieceTokens]
  | visit e => rfl

/-- A construct with a rewrite is read as the rewrite. -/
theorem tokens_of_rewrite {e e' : Expr} (h : e.rewrite d = some e') :
    e.tokens d = e'.tokens d := by
  simp [tokens_eq d e, pieces, h, pieceTokens]

theorem tokens_of_native {e : Expr} (h : e.rewrite d = none) :
    e.tokens d = (e.nativePieces d).flatMap (pieceTokens d) := by
  simp [tokens_eq d e, pieces, h]

/-! ## Nodes -/

@[simp] theorem tokens_column (c : Column) : (Expr.column c).tokens d = [.column c] := by
  rw [tokens_of_native rfl]
  rfl

@[simp] theorem tokens_constant (c : Constant) : (Expr.constant c).tokens d = [.constant c] := by
  rw [tokens_of_native rfl]
  rfl

theorem tokens_call_function {f : Builtin} {args : List Expr} (h : d.callStyle f = .function) :
    (Expr.call f args).tokens d =
      [.function f, .lparen] ++ List.intercalate [.comma] (args.map (tokens d)) ++ [.rparen] := by
  rw [tokens_of_native rfl, nativePieces, h]
  simp only [List.flatMap_append, Piece.flatMap_visits_intercalate]
  rfl

theorem tokens_call_operator {f : Builtin} {args : List Expr} (h : d.callStyle f = .operator) :
    (Expr.call f args).tokens d =
      [.lparen] ++ List.intercalate [.concat] (args.map (tokens d)) ++ [.rparen] := by
  rw [tokens_of_native rfl, nativePieces, h]
  simp only [List.flatMap_append, Piece.flatMap_visits_intercalate]
  rfl

theorem tokens_arith (op : ArithOp) (l r : Expr) :
    (Expr.arith op l r).tokens d =
      [.lparen] ++ l.tokens d ++ [.arith op] ++ r.tokens d ++ [.rparen] := by
  rw [tokens_of_native rfl]
  simp [nativePieces, pieceTokens, Piece.sql, Write.tokens]
  rfl

theorem tokens_compare (op : Comparator) (l r : Expr) :
    (Expr.compare op l r).tokens d = l.tokens d ++ [.compare op] ++ r.tokens d := by
  rw [tokens_of_native rfl]
  simp [nativePieces, pieceTokens, Piece.sql, Write.tokens]
  rfl

theorem tokens_logical (op : Connective) (l r : Expr) :
    (Expr.logical op l r).tokens d =
      [.lparen] ++
        List.intercalate [.keyword op.keyword] (((Expr.logical op l r).chain op).map (tokens d)) ++
        [.rparen] := by
  rw [tokens_of_native rfl, nativePieces]
  simp only [List.flatMap_append, Piece.flatMap_visits_intercalate]
  rfl

/-- The condition of a `NOT` brings its own parentheses only if it is a chain. -/
theorem tokens_not (e : Expr) :
    (Expr.not e).tokens d = [.keyword .not] ++
      if e.isLogical then e.tokens d else [.lparen] ++ e.tokens d ++ [.rparen] := by
  rw [tokens_of_native rfl, nativePieces]
  split
  · simp [pieceTokens, Piece.sql, Piece.keyword, Write.tokens]
    rfl
  · simp [pieceTokens, Piece.sql, Piece.keyword, Write.tokens]
    rfl

theorem tokens_row (fields : List Expr) :
    (Expr.row fields).tokens d =
      [.lparen] ++ List.intercalate [.comma] (fields.map (tokens d)) ++ [.rparen] := by
  rw [tokens_of_native rfl, nativePieces]
  simp only [List.flatMap_append, Piece.flatMap_visits_intercalate]
  rfl

theorem tokens_overlay {source replacement start : Expr} {length : Option Expr}
    (h : (Expr.overlay source replacement start length).rewrite d = none) :
    (Expr.overlay source replacement start length).tokens d =
      [.keyword .overlay, .lparen] ++ source.tokens d ++ [.keyword .placing] ++
        replacement.tokens d ++ [.keyword .from] ++ start.tokens d ++
        (length.elim [] fun n => [.keyword .for] ++ n.tokens d) ++ [.rparen] := by
  rw [tokens_of_native h, nativePieces, Overlay.pieces]
  cases length with
  | none => simp [pieceTokens, Piece.sql, Piece.keyword, Write.tokens]; rfl
  | some n => simp [pieceTokens, Piece.sql, Piece.keyword, Write.tokens]; rfl

/-- Oracle writes a second pair of parentheses around the row on the right. -/
theorem tokens_rowCompare {op : Comparator} {left right : List Expr}
    (h : (Expr.rowCompare op left right).rewrite d = none) :
    (Expr.rowCompare op left right).tokens d =
      (Expr.row left).tokens d ++ [.compare op] ++
        if d.rightRowNeedsParentheses then [.lparen] ++ (Expr.row right).tokens d ++ [.rparen]
        else (Expr.row right).tokens d := by
  rw [tokens_of_native h, nativePieces, RowCompare.pieces]
  split
  · simp [pieceTokens, Piece.sql, Write.tokens, Row.toExpr]
    rfl
  · simp [pieceTokens, Piece.sql, Write.tokens, Row.toExpr]
    rfl

end Expr

end SqlExpr
