-- SUMMARY: Lowering adds no constant to a tree but the number one.
import SqlExpr.Proofs.Overlay.Additions
import SqlExpr.Proofs.Render.Params
import SqlExpr.Proofs.Row.Fieldwise

/-!
# Constants of the lowered tree

The rewrites bring the number one, by which they count, and repeat and leave out operands. So what
is true of the constants of a tree and of the number one is true of all that is rendered
(`Expr.constants_of_lower`).
-/

namespace SqlExpr.Expr

variable {d : Dialect} {Q : Constant → Prop}

theorem forall_constants {e : Expr} :
    (∀ c ∈ e.constants, Q c) ↔ e.Everywhere fun x => ∀ c ∈ x.constant?, Q c := by
  simp only [constants, List.mem_filterMap, Everywhere, Option.mem_def]
  constructor
  · intro h x hx c hc
    exact h c ⟨x, hx, hc⟩
  · rintro h c ⟨x, hx, hc⟩
    exact h x hx c hc

private theorem constants_of_link {e x : Expr} (hQ : ∀ c ∈ e.constants, Q c) (hx : x ∈ e.links) :
    ∀ c ∈ x.constants, Q c := by
  rw [forall_constants] at hQ ⊢
  exact hQ.of_mem_links hx

private theorem constants_of_rewrite {e e' : Expr} (h : e.rewrite d = some e')
    (hone : Q (.literal (.int 1))) (hQ : ∀ c ∈ e.constants, Q c) : ∀ c ∈ e'.constants, Q c := by
  rw [forall_constants] at hQ ⊢
  cases e with
  | overlay source replacement start length =>
    refine Overlay.everywhere_rewrite h hQ ?_
    simpa [Overlay.additions, Overlay.alternate, Overlay.emulated, Overlay.head, Overlay.tail, sub,
      add, literal, constant?] using hone
  | rowCompare op left right =>
    refine RowCompare.everywhere_rewrite h hQ ?_ ?_ ?_
    · simp [constant?]
    · simp [constant?]
    · simp [constant?]
  | _ => cases h

theorem constants_of_lower {e : Expr} (d : Dialect) (hone : Q (.literal (.int 1)))
    (hQ : ∀ c ∈ e.constants, Q c) : ∀ c ∈ (e.lower d).constants, Q c := by
  induction h : e.height using Nat.strongRecOn generalizing e with
  | _ n ih =>
  subst h
  cases hrewrite : e.rewrite d with
  | some e' =>
    rw [lower_of_rewrite hrewrite]
    exact ih _ (height_rewrite_lt hrewrite) (constants_of_rewrite hrewrite hone hQ) rfl
  | none =>
    intro c hc
    rw [constants_lower hrewrite] at hc
    rcases List.mem_append.1 hc with hc | hc
    · refine hQ c ?_
      rw [constants_eq]
      exact List.mem_append_left _ hc
    · obtain ⟨x, hx, hc⟩ := List.mem_flatMap.1 hc
      exact ih _ (height_lt_of_mem_links hx) (constants_of_link hQ hx) rfl c hc

end SqlExpr.Expr
