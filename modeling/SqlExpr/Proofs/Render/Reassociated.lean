-- SUMMARY: How chains of AND and OR are nested shows neither in what is rendered nor in the value.
import SqlExpr.Proofs.Expr.Reassociated
import SqlExpr.Proofs.Render.Congruence
import SqlExpr.Proofs.Semantics.Lists
import SqlExpr.Proofs.Semantics.Substitution
import SqlExpr.Render.Renderer

/-!
# Nesting of chains in a rendering

A chain is written as its links, however it is nested, and rewrites of constructs that hold chains
differ from each other as the chains do. So expressions that differ in nesting alone are rendered in
the same way, fail at the same depth limits and have the same value
(`Expr.render_eq_of_reassociated`).
-/

namespace SqlExpr

/-- The two are the same piece, or visits of expressions that differ in nesting alone. -/
inductive Piece.Reassociated : Piece → Piece → Prop
  | refl (p : Piece) : Reassociated p p
  | visit {e e' : Expr} (h : e.Reassociated e') : Reassociated (.visit e) (.visit e')

namespace Expr

namespace Reassociated

variable {e e' : Expr}

/-! ## Renderings -/

theorem pieces (h : Reassociated e e') (d : Dialect) :
    List.Forall₂ Piece.Reassociated (e.pieces d) (e'.pieces d) :=
  forall₂_pieces .visit (h.rewrite d)
    (forall₂_nativePieces .refl .visit h.sameNode (fun _ _ _ => isLogical) d h.links)

/-- A sink that looks at no visited expression itself is handed the same rendering for both. -/
theorem renderInto_eq {ε σ : Type} {sink : Sink ε σ} (h : Reassociated e e')
    (hvisit : ∀ x x', Reassociated x x' → sink.visit x = sink.visit x') :
    e.renderInto sink = e'.renderInto sink := by
  refine sink.renderInto_eq_of_pieces (fun h => h.pieces sink.dialect) ?_ h
  intro p p' hp hrender
  cases hp with
  | refl => rfl
  | @visit x x' hx => simp only [Sink.renderPiece, hvisit x x' hx, hrender x rfl x' hx]

theorem visit_eq (h : Reassociated e e') (r : Renderer) :
    Renderer.visit e r = Renderer.visit e' r := by
  unfold Renderer.visit
  rw [h.renderInto_eq fun _ _ _ => rfl]

/-! ## Values -/

/-- The value is kept where the connective is regrouped, and from there on upward. -/
private theorem alike (h : Reassociated e e') (env : Column → Datum) : Alike env env e e' := by
  induction h with
  | assoc op a b c =>
    refine .of_value rfl rfl ?_
    exact @Std.Associative.assoc _ (Datum.connect? op) _ (a.eval env) (b.eval env) (c.eval env)
  | refl e => exact .refl e
  | symm _ ih => exact ⟨ih.value.symm, ih.fields.symm⟩
  | trans _ _ ih ih' => exact ih.trans ih'
  | @operands e e' hnode hfilled _ ih =>
    have hslots := forall₂_of_filled (R := Alike env env) hfilled ih
    by_cases hcolumn : ∃ c, e = .column c
    · obtain ⟨c, rfl⟩ := hcolumn
      cases hnode
      exact .refl _
    · exact .of_operands hnode (fun c hc => hcolumn ⟨c, hc⟩) (rel_join_getElem? hslots)

end Reassociated

/-! ## Chains -/

/-- Expressions that differ only in how conditions joined by the same connective are nested, anywhere
    in them, are rendered in the same way: any renderer ends in the same state, and fails in the same
    way if it fails. They have the same value. Two expressions differ only in this exactly if their
    chains do so link by link. The links of a chain are no nodes of its connective, and they are what
    the paths through nodes of the connective lead to, each path once, from left to right. -/
theorem render_eq_of_reassociated :
    (∀ e e' : Expr, e.Reassociated e' → (∀ r, Renderer.visit e r = Renderer.visit e' r) ∧
      (∀ d s, e.render d s = e'.render d s) ∧ ∀ env, e.eval env = e'.eval env) ∧
    (∀ op (e e' : Expr),
      e.Reassociated e' ↔ List.Forall₂ Reassociated (e.chain op) (e'.chain op)) ∧
    ∀ op (e : Expr), (∀ x ∈ e.chain op, ∀ l r, x ≠ .logical op l r) ∧
      ∃ paths : List (List Bool), paths.Pairwise (· < ·) ∧
        (∀ path, path ∈ paths ↔ LeadsOut op e path) ∧
        paths.map (e.linkAt op) = (e.chain op).map some := by
  refine ⟨fun e e' h => ⟨h.visit_eq, fun d s => ?_, fun env => (h.alike env).value⟩,
    fun op _ _ => reassociated_iff_chain op,
    fun op e => ⟨fun x hx => ne_logical_of_mem_chain hx, exists_chain_paths op e⟩⟩
  unfold render
  rw [h.visit_eq]

/-- A chain of three conditions below a `NOT`, in a field of rows that are compared by their
    fields. -/
theorem render_eq_of_reassociated_derby :
    let a : Expr := .column ⟨none, "a", .boolean⟩
    let comparison (chain : Expr) : Expr := .rowCompare .gt [.not chain, a] [a, .bind (.bool true)]
    let left := comparison (.and (.and a (.or a a)) a)
    let right := comparison (.and a (.and (.or a a) a))
    left.Reassociated right ∧ (∀ s, left.render .derby s = right.render .derby s) ∧
      ∀ env, left.eval env = right.eval env := by
  intro a comparison left right
  have hfield : Reassociated (.not (.and (.and a (.or a a)) a)) (.not (.and a (.and (.or a a) a))) :=
    Reassociated.congruence.not (.assoc .and a (.or a a) a)
  have h : left.Reassociated right :=
    .rowCompare .gt (.cons hfield (Reassociated.forall₂_refl _)) (Reassociated.forall₂_refl _)
  obtain ⟨-, hrender, heval⟩ := render_eq_of_reassociated.1 left right h
  exact ⟨h, hrender .derby, heval⟩

end Expr

end SqlExpr
