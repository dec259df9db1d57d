-- SUMMARY: What can be collected from the pieces of a node: its constant, and its links in order.
import Mathlib.Data.List.Basic
import SqlExpr.Proofs.Expr.Everywhere
import SqlExpr.Render.Walk

/-!
# Pieces of a node

A node that is written as it is visits its links, each once and in order; of its own writes only a
constant is more than fixed text (`Expr.flatMap_nativePieces`).
-/

namespace SqlExpr

namespace Piece

/-- What is collected from visits, if the pieces between them give nothing. -/
private theorem flatMap_visits {g : Piece → List α} {separator : List Piece}
    (h : separator.flatMap g = []) (es : List Expr) :
    (visits separator es).flatMap g = es.flatMap fun x => g (.visit x) := by
  cases es with
  | nil => rfl
  | cons e es =>
    rw [visits_cons, List.flatMap_cons, List.flatMap_cons, List.flatMap_assoc]
    simp [h]

private theorem forall_mem_visits {P : Piece → Prop} {separator : List Piece}
    (hseparator : ∀ p ∈ separator, P p) (hvisit : ∀ e, P (.visit e)) (es : List Expr) :
    ∀ p ∈ visits separator es, P p := by
  cases es with
  | nil => simp [visits]
  | cons e es =>
    rw [visits_cons]
    simp only [List.forall_mem_cons, List.mem_flatMap, List.mem_append, List.mem_singleton]
    refine ⟨hvisit e, ?_⟩
    rintro p ⟨x, -, hp | rfl⟩
    · exact hseparator p hp
    · exact hvisit x

/-- The expression that is visited, if one is. -/
def visited? : Piece → Option Expr
  | .write _ => none
  | .visit e => some e

theorem mem_filterMap_visited? {pieces : List Piece} {e : Expr} :
    e ∈ pieces.filterMap visited? ↔ .visit e ∈ pieces := by
  rw [List.mem_filterMap]
  constructor
  · rintro ⟨_ | e', h, he⟩
    · cases he
    · cases he
      exact h
  · exact fun h => ⟨_, h, rfl⟩

end Piece

namespace Expr

def constant? : Expr → Option Constant
  | .constant c => some c
  | _ => none

/-- What is collected from the pieces of a node that is written as it is, if only constants and
    visits give something: the links below the node are visited in order. -/
theorem flatMap_nativePieces {g : Piece → List α}
    (hg : ∀ w, w.constant? = none → g (.write w) = []) (d : Dialect) (e : Expr) :
    (e.nativePieces d).flatMap g =
      (e.constant?.toList.flatMap fun c => g (.write (.value c))) ++
        e.links.flatMap fun x => g (.visit x) := by
  have hsql (text : String) : g (.sql text) = [] := hg (.sql text) rfl
  have hkeyword (k : Keyword) : g (.keyword k) = [] := hg (.keyword k) rfl
  cases e with
  | column c => simp [nativePieces, constant?, links, operands, slots, hg (.identifier c) rfl]
  | constant c => simp [nativePieces, constant?, links, operands, slots]
  | call f args =>
    rw [nativePieces]
    split <;> simp [Piece.flatMap_visits, constant?, links, operands, slots, hsql,
      hg (.functionName f) rfl]
  | logical op l r => simp [nativePieces, Piece.flatMap_visits, constant?, links, hsql, hkeyword]
  | row fields => simp [nativePieces, Piece.flatMap_visits, constant?, links, operands, slots, hsql]
  | overlay source replacement start length =>
    cases length <;>
      simp [nativePieces, Overlay.pieces, constant?, links, operands, slots, hsql, hkeyword]
  | rowCompare op left right =>
    rw [nativePieces, RowCompare.pieces]
    split <;> simp [constant?, links, operands, slots, hsql, Row.toExpr]
  | not e =>
    rw [nativePieces]
    split <;> simp [constant?, links, operands, slots, hsql, hkeyword]
  | _ => simp [nativePieces, constant?, links, operands, slots, hsql]

/-- What a node that is written as it is writes itself, besides blanks, commas, parentheses and
    `||`. -/
def words : Expr → List Write
  | .column c => [.identifier c]
  | .constant c => [.value c]
  | .call f _ => [.functionName f]
  | .arith op _ _ => [.sql op.symbol]
  | .compare op _ _ | .rowCompare op _ _ => [.sql op.symbol]
  | .logical op _ _ => [.keyword op.keyword]
  | .not _ => [.keyword .not]
  | .row _ => []
  | .overlay _ _ _ _ => [.keyword .overlay, .keyword .placing, .keyword .from, .keyword .for]

/-- What holds of visits, of the texts between them and of the words of a node holds of its
    pieces. -/
theorem forall_mem_nativePieces {P : Piece → Prop} {d : Dialect} {e : Expr}
    (hvisit : ∀ x, P (.visit x)) (hgap : ∀ text ∈ [" ", "(", ")", ", ", " || "], P (.sql text))
    (hwords : ∀ w ∈ e.words, P (.write w)) : ∀ p ∈ e.nativePieces d, P p := by
  have hvisits {separator : List Piece} (h : ∀ p ∈ separator, P p) (es : List Expr) :
      ∀ p ∈ Piece.visits separator es, P p :=
    Piece.forall_mem_visits h hvisit es
  simp only [List.forall_mem_cons] at hgap
  cases e with
  | call f args =>
    simp only [words, List.forall_mem_singleton] at hwords
    rw [nativePieces]
    split
    · simpa [hgap, or_imp, forall_and] using hvisits (by simp [hgap]) args
    · simpa [hgap, hwords, or_imp, forall_and] using hvisits (by simp [hgap]) args
  | logical op l r =>
    have hkeyword : P (.keyword op.keyword) := hwords _ List.mem_cons_self
    simpa [nativePieces, hgap, or_imp, forall_and] using hvisits (by simp [hgap, hkeyword]) _
  | row fields => simpa [nativePieces, hgap, or_imp, forall_and] using hvisits (by simp [hgap]) _
  | not e =>
    have hkeyword : P (.keyword .not) := hwords _ List.mem_cons_self
    rw [nativePieces]
    split <;> simp [hgap, hvisit, hkeyword]
  | overlay source replacement start length =>
    have hkeyword {k : Keyword} (hk : k ∈ [.overlay, .placing, .from, .for]) : P (.keyword k) :=
      hwords _ (by simpa [words] using hk)
    cases length <;> simp [nativePieces, Overlay.pieces, hgap, hvisit, hkeyword]
  | rowCompare op left right =>
    have hoperator : P (.sql op.symbol) := hwords _ List.mem_cons_self
    rw [nativePieces, RowCompare.pieces]
    split <;> simp [hgap, hvisit, hoperator]
  | arith op l r | compare op l r =>
    have hoperator : P (.sql op.symbol) := hwords _ List.mem_cons_self
    simp [nativePieces, hgap, hvisit, hoperator]
  | column | constant => simpa [nativePieces, words] using hwords

/-- A node that is written as it is visits its links. -/
theorem visited_nativePieces (d : Dialect) (e : Expr) :
    (e.nativePieces d).filterMap Piece.visited? = e.links := by
  rw [List.filterMap_eq_flatMap_toList, flatMap_nativePieces (fun _ _ => rfl)]
  simp [Piece.visited?]

theorem visit_mem_nativePieces {d : Dialect} {e x : Expr} :
    .visit x ∈ e.nativePieces d ↔ x ∈ e.links := by
  rw [← visited_nativePieces d, Piece.mem_filterMap_visited?]

/-- What holds everywhere in a tree holds everywhere in the links of its root. -/
theorem Everywhere.of_mem_links {P : Expr → Prop} {e x : Expr} (h : e.Everywhere P)
    (hx : x ∈ e.links) : x.Everywhere P := by
  cases e with
  | logical op l r => exact h.of_mem_chain hx
  | _ => exact (Everywhere.iff_operands.1 h).2 x hx

/-- Rendering a node nests one visit deeper than the deepest of what the node visits. -/
theorem depth_eq (d : Dialect) (e : Expr) :
    e.depth d = 1 + (((e.pieces d).filterMap Piece.visited?).map (depth d)).foldr max 0 := by
  rw [pieces]
  cases hrewrite : e.rewrite d with
  | some e' => exact (depth_of_rewrite hrewrite).trans (congrArg (1 + ·) (Nat.max_zero _).symm)
  | none => rw [visited_nativePieces, depth_of_native hrewrite]

end Expr

end SqlExpr
