-- SUMMARY: Of two neighbouring writes of a rendering, one is a gap.
import Mathlib.Data.List.Chain
import SqlExpr.Proofs.Lexing.Writes
import SqlExpr.Proofs.Render.Visits

/-!
# Gaps between writes

No two tokens of a rendering touch each other (`Expr.isChain_writes`): before and after every
visit, name, word, value and operator stands a gap, or nothing. Every other text that is written is
an operator (`Expr.lexical_of_sql_mem_writes`).
-/

namespace SqlExpr

/-- One of the two keeps them apart. -/
def Write.Apart (w u : Write) : Prop := w.isGap = true ∨ u.isGap = true

namespace Piece

def isGap : Piece → Bool
  | .write w => w.isGap
  | .visit _ => false

/-- One of the two keeps them apart. -/
def Apart (p q : Piece) : Prop := p.isGap = true ∨ q.isGap = true

variable {separator : List Piece}

/-- A chain of visits, if the separator is a chain between two of them. -/
private theorem isChain_visits
    (h : ∀ e e', (.visit e :: (separator ++ [.visit e'])).IsChain Apart) (es : List Expr) :
    (visits separator es).IsChain Apart := by
  cases es with
  | nil => exact .nil
  | cons e es =>
    rw [visits_cons]
    induction es generalizing e with
    | nil => exact .singleton _
    | cons e' es ih =>
      rw [List.flatMap_cons, List.append_assoc, ← List.cons_append]
      exact List.isChain_split.2 ⟨h e e', ih e'⟩

/-- Gaps around a chain belong to it. -/
private theorem isChain_enclosed {ps : List Piece} (h : ps.IsChain Apart) {p q : Piece}
    (hp : p.isGap = true) (hq : q.isGap = true) : (p :: (ps ++ [q])).IsChain Apart := by
  refine List.isChain_cons.2 ⟨fun _ _ => .inl hp, ?_⟩
  exact .append h (.singleton q) fun x _ y hy => by
    cases hy
    exact .inr hq

/-- A text of the piece is a gap or an operator. -/
def Lexical : Piece → Prop
  | .write (.sql text) => (Write.sql text).Lexical
  | _ => True

private theorem lexical_visit (e : Expr) : (Piece.visit e).Lexical := trivial

private theorem lexical_gap {text : String} (h : text ∈ Write.gaps) : (sql text).Lexical :=
  List.mem_append_left _ h

theorem lexical_operator {text : String} (h : text ∈ Write.operators) : (sql text).Lexical :=
  List.mem_append_right _ h

private theorem lexical_comparator (op : Comparator) : (sql op.symbol).Lexical :=
  lexical_operator (by cases op <;> decide)

private theorem lexical_arithOp (op : ArithOp) : (sql op.symbol).Lexical :=
  lexical_operator (by cases op <;> decide)

end Piece

namespace Expr

private theorem isChain_nativePieces (d : Dialect) (e : Expr) :
    (e.nativePieces d).IsChain Piece.Apart := by
  have hsql (text : String) : (Piece.sql text).isGap = (Write.sql text).isGap := rfl
  -- A gap alone is a separator.
  have hvisits {text : String} (h : (Write.sql text).isGap = true) (es : List Expr) :
      (Piece.visits [.sql text] es).IsChain Piece.Apart :=
    Piece.isChain_visits (by simp [Piece.Apart, hsql, h]) es
  cases e with
  | call f args =>
    rw [nativePieces]
    split
    · exact Piece.isChain_enclosed (hvisits rfl args) rfl rfl
    · exact .cons_cons (.inr rfl) (Piece.isChain_enclosed (hvisits rfl args) rfl rfl)
  | row fields => exact Piece.isChain_enclosed (hvisits rfl fields) rfl rfl
  | logical op l r =>
    refine Piece.isChain_enclosed (Piece.isChain_visits ?_ _) rfl rfl
    simp [Piece.Apart, hsql, Write.isGap, Write.gaps]
  | not e =>
    rw [nativePieces]
    split <;> simp [Piece.Apart, hsql, Write.isGap, Write.gaps]
  | overlay source replacement start length =>
    cases length <;> simp [nativePieces, Overlay.pieces, Piece.Apart, hsql, Write.isGap, Write.gaps]
  | rowCompare op left right =>
    rw [nativePieces, RowCompare.pieces]
    split <;> simp [Piece.Apart, hsql, Write.isGap, Write.gaps]
  | _ => simp [nativePieces, Piece.Apart, hsql, Write.isGap, Write.gaps]

/-- Chains of pieces give chains of writes. -/
private theorem isChain_flatMap_writes {d : Dialect} {pieces : List Piece}
    (h : pieces.IsChain Piece.Apart)
    (hvisit : ∀ e, .visit e ∈ pieces → (e.writes d).IsChain Write.Apart) :
    (pieces.flatMap (Piece.writes d)).IsChain Write.Apart := by
  induction pieces with
  | nil => exact .nil
  | cons p pieces ih =>
    obtain ⟨hnext, htail⟩ := List.isChain_cons.1 h
    have hpiece : (p.writes d).IsChain Write.Apart := by
      cases p with
      | write w => exact .singleton w
      | visit e => exact hvisit e List.mem_cons_self
    rw [List.flatMap_cons]
    refine hpiece.append (ih htail fun e he => hvisit e (List.mem_cons_of_mem _ he)) ?_
    intro w hw u hu
    cases pieces with
    | nil => cases hu
    | cons q pieces =>
      -- The gap is a single write, the last one of `p` or the first one of `q`.
      rcases hnext q rfl with hgap | hgap
      · cases p with
        | write w' =>
          cases hw
          exact .inl hgap
        | visit e => cases hgap
      · cases q with
        | write u' =>
          cases hu
          exact .inr hgap
        | visit e => cases hgap

/-- Of two neighbouring writes of a rendering, one is a gap. -/
theorem isChain_writes (d : Dialect) (e : Expr) : (e.writes d).IsChain Write.Apart := by
  induction e using visit_induction d with
  | node e ih =>
    rw [writes_eq]
    refine isChain_flatMap_writes ?_ ih
    rw [pieces]
    cases e.rewrite d with
    | some e' => exact .singleton _
    | none => exact isChain_nativePieces d e

/-! ## Texts -/

private theorem lexical_of_mem_nativePieces {d : Dialect} {e : Expr} :
    ∀ p ∈ e.nativePieces d, p.Lexical := by
  refine forall_mem_nativePieces Piece.lexical_visit (fun text => Piece.lexical_gap) ?_
  cases e with
  | arith op l r => exact List.forall_mem_singleton.2 (Piece.lexical_arithOp op)
  | compare op l r | rowCompare op l r =>
    exact List.forall_mem_singleton.2 (Piece.lexical_comparator op)
  | _ => simp [words, Piece.Lexical]

/-- All SQL text that is written is a gap or an operator. -/
theorem lexical_of_sql_mem_writes {d : Dialect} {e : Expr} {text : String}
    (h : .sql text ∈ e.writes d) : (Write.sql text).Lexical := by
  obtain ⟨x, -, -, hpiece⟩ := mem_writes_iff.1 h
  exact lexical_of_mem_nativePieces _ hpiece

end Expr

end SqlExpr
