-- SUMMARY: The tree that is rendered in place of an expression, all writes of its rendering, and its exact nesting.
import SqlExpr.Expr.Traversal
import SqlExpr.Render.Height

/-!
# What a rendering amounts to

Without a sink, the rendering of an expression on a dialect comes down to a sequence of
writes (`Expr.writes`), to the tree in which every construct that the dialect lacks
has been rewritten (`Expr.lower`), and to the number of visits that are under way at
its deepest point (`Expr.depth`).
-/

namespace SqlExpr

/-! ## Writes -/

/-- Every write that rendering the expression on a dialect makes, in order. -/
def Expr.writes (d : Dialect) (e : Expr) : List Write :=
  (e.pieces d).attach.flatMap fun
    | ⟨.write w, _⟩ => [w]
    | ⟨.visit e', _⟩ => e'.writes d
termination_by e.height
decreasing_by exact height_lt_of_mem_pieces ‹_›

/-- The writes of one piece. -/
def Piece.writes (d : Dialect) : Piece → List Write
  | .write w => [w]
  | .visit e => e.writes d

/-- The writes of a node are those of its pieces. -/
theorem Expr.writes_eq (d : Dialect) (e : Expr) :
    e.writes d = (e.pieces d).flatMap (Piece.writes d) := by
  rw [writes]
  conv => rhs; rw [← List.attach_map_subtype_val (e.pieces d), List.flatMap_map]
  congr 1
  funext ⟨p, _⟩
  cases p <;> rfl

namespace Piece

theorem visits_cons (separator : List Piece) (e : Expr) (es : List Expr) :
    visits separator (e :: es) = .visit e :: es.flatMap fun x => separator ++ [.visit x] := by
  unfold visits
  induction es generalizing e with
  | nil => rfl
  | cons e' es ih =>
    simp only [List.map_cons, List.intercalate_cons_cons] at ih ⊢
    rw [ih]
    simp

/-- What is collected from visits, with what the separators give in between. -/
theorem flatMap_visits_intercalate (g : Piece → List α) (separator : List Piece) (es : List Expr) :
    (visits separator es).flatMap g =
      (separator.flatMap g).intercalate (es.map fun x => g (.visit x)) := by
  unfold visits
  induction es with
  | nil => rfl
  | cons e es ih =>
    cases es with
    | nil => simp
    | cons e' es =>
      simp only [List.map_cons, List.intercalate_cons_cons, List.flatMap_append] at ih ⊢
      rw [ih]
      simp

end Piece

namespace Expr

variable {d : Dialect}

/-- A construct with a rewrite is written as the rewrite. -/
theorem writes_of_rewrite {e e' : Expr} (h : e.rewrite d = some e') : e.writes d = e'.writes d := by
  rw [writes_eq, pieces, h]
  exact List.append_nil _

theorem writes_of_native {e : Expr} (h : e.rewrite d = none) :
    e.writes d = (e.nativePieces d).flatMap (Piece.writes d) := by
  rw [writes_eq, pieces, h]

theorem writes_column (c : Column) : (Expr.column c).writes d = [.identifier c] := by
  rw [writes_of_native rfl]
  rfl

theorem writes_constant (c : Constant) : (Expr.constant c).writes d = [.value c] := by
  rw [writes_of_native rfl]
  rfl

theorem writes_call_function {f : Builtin} {args : List Expr} (h : d.callStyle f = .function) :
    (Expr.call f args).writes d =
      [.functionName f, .sql "("] ++ List.intercalate [.sql ", "] (args.map (writes d)) ++
        [.sql ")"] := by
  rw [writes_of_native rfl, nativePieces, h]
  simp only [List.flatMap_append, Piece.flatMap_visits_intercalate]
  rfl

theorem writes_arith (op : ArithOp) (l r : Expr) :
    (Expr.arith op l r).writes d =
      [.sql "("] ++ l.writes d ++ [.sql " ", .sql op.symbol, .sql " "] ++ r.writes d ++
        [.sql ")"] := by
  rw [writes_of_native rfl]
  simp [nativePieces, Piece.sql, Piece.writes]

theorem writes_row (fields : List Expr) :
    (Expr.row fields).writes d =
      [.sql "("] ++ List.intercalate [.sql ", "] (fields.map (writes d)) ++ [.sql ")"] := by
  rw [writes_of_native rfl, nativePieces]
  simp only [List.flatMap_append, Piece.flatMap_visits_intercalate]
  rfl

theorem writes_compare (op : Comparator) (l r : Expr) :
    (Expr.compare op l r).writes d =
      l.writes d ++ [.sql " ", .sql op.symbol, .sql " "] ++ r.writes d := by
  rw [writes_of_native rfl]
  simp [nativePieces, Piece.sql, Piece.writes]

theorem writes_not {e : Expr} (h : e.isLogical = false) :
    (Expr.not e).writes d = [.keyword .not, .sql " ", .sql "("] ++ e.writes d ++ [.sql ")"] := by
  rw [writes_of_native rfl]
  simp [nativePieces, Piece.sql, Piece.keyword, Piece.writes, h]

/-! ## Nesting -/

/-- The expressions directly below a node. A chain of `AND` or `OR` counts as one node. -/
def links : Expr → List Expr
  | .logical op l r => (Expr.logical op l r).chain op
  | e => e.operands

theorem height_lt_of_mem_links {e e' : Expr} (h : e' ∈ e.links) : e'.height < e.height := by
  cases e with
  | column | constant => simp [links, operands, slots] at h
  | logical op l r => exact height_lt_of_mem_chain_logical h
  | call f args =>
    have := height_le_listHeight (by simpa [links, mem_operands, slots] using h)
    simp only [height]; omega
  | row fields =>
    have := height_le_listHeight (by simpa [links, mem_operands, slots] using h)
    simp only [height]; omega
  | overlay source replacement start length =>
    simp only [links, mem_operands, slots, List.mem_cons, Option.some.injEq, List.not_mem_nil,
      or_false] at h
    simp only [height]
    rcases h with rfl | rfl | rfl | rfl
    · omega
    · omega
    · omega
    · simp only [optionHeight]; omega
  | rowCompare op left right =>
    simp only [links, mem_operands, slots, List.mem_cons, Option.some.injEq, List.not_mem_nil,
      or_false] at h
    rcases h with rfl | rfl
    · simp only [height]; omega
    · simp only [height]; omega
  | arith op l r | compare op l r =>
    simp only [links, mem_operands, slots, List.mem_cons, Option.some.injEq, List.not_mem_nil,
      or_false] at h
    simp only [height]
    rcases h with rfl | rfl
    · omega
    · omega
  | not e =>
    simp only [links, mem_operands, slots, List.mem_cons, Option.some.injEq, List.not_mem_nil,
      or_false] at h
    simp only [h, height]
    omega

/-- How many visits are under way at the deepest point of rendering the expression on a dialect.
    One for the node itself, and those of its rewrite or else of the links below it. -/
def depth (d : Dialect) (e : Expr) : Nat :=
  match _h : e.rewrite d with
  | some e' => 1 + e'.depth d
  | none => 1 + (e.links.attach.map fun e' => e'.1.depth d).foldr max 0
termination_by e.height
decreasing_by
  · exact height_rewrite_lt _h
  · exact height_lt_of_mem_links e'.2

theorem depth_of_rewrite {d : Dialect} {e e' : Expr} (h : e.rewrite d = some e') :
    e.depth d = 1 + e'.depth d := by
  rw [depth]
  split
  · next h' => rw [h] at h'; cases h'; rfl
  · next h' => rw [h] at h'; cases h'

theorem depth_of_native {d : Dialect} {e : Expr} (h : e.rewrite d = none) :
    e.depth d = 1 + (e.links.map fun e' => e'.depth d).foldr max 0 := by
  rw [depth]
  split
  · next h' => rw [h] at h'; cases h'
  · conv => rhs; rw [← List.attach_map_subtype_val e.links, List.map_map]
    rfl

/-! ## The rendered tree -/

/-- The tree that is rendered on a dialect: from the root downward, every construct that the
    dialect lacks is replaced by its rewrite, and the same inside of the rewrite. -/
def lower (d : Dialect) : Expr → Expr
  | .column c => .column c
  | .constant c => .constant c
  | .call f args => .call f (args.attach.map fun a => a.1.lower d)
  | .arith op l r => .arith op (l.lower d) (r.lower d)
  | .compare op l r => .compare op (l.lower d) (r.lower d)
  | .logical op l r => .logical op (l.lower d) (r.lower d)
  | .not e => .not (e.lower d)
  | .row fields => .row (fields.attach.map fun a => a.1.lower d)
  | .overlay source replacement start length =>
    match _h : (Expr.overlay source replacement start length).rewrite d with
    | some e => e.lower d
    | none =>
      .overlay (source.lower d) (replacement.lower d) (start.lower d)
        (match length with
          | some n => some (n.lower d)
          | none => none)
  | .rowCompare op left right =>
    match _h : (Expr.rowCompare op left right).rewrite d with
    | some e => e.lower d
    | none =>
      .rowCompare op (left.attach.map fun a => a.1.lower d) (right.attach.map fun a => a.1.lower d)
termination_by e => e.height
decreasing_by
  all_goals try exact height_rewrite_lt _h
  all_goals try have := height_le_listHeight a.2
  all_goals simp only [height, optionHeight]; omega

end Expr

end SqlExpr
