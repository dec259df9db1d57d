-- SUMMARY: Rewriting a tree from its leaves upward with a function that may replace the nodes it is offered.
import SqlExpr.Expr.Equality
import SqlExpr.Expr.Traversal

/-!
# Replacement

`Expr.replaceWith` rewrites the operands of a node first, puts those that changed into
the node one after the other, and then offers the node to a function, which may give
another one in its place. The function may keep a state of its own; a node that
cannot be rebuilt ends the pass.
-/

namespace SqlExpr.Expr

/-- The operands that are present, each with its position. -/
def positions (e : Expr) : List (Nat × Expr) :=
  e.slots.zipIdx.filterMap fun (slot, index) => slot.map (index, ·)

theorem size_lt_of_mem_positions {e : Expr} {p : Nat × Expr} (h : p ∈ e.positions) :
    p.2.size < e.size := by
  obtain ⟨⟨slot, i⟩, hmem, hp⟩ := List.mem_filterMap.1 h
  obtain ⟨o, rfl, rfl⟩ := Option.map_eq_some_iff.1 hp
  exact size_lt_of_mem_slots (List.fst_mem_of_mem_zipIdx hmem)

/-- Put a rewritten operand into the node, unless it is the same as the one it was made of. -/
def splice (node operand : Expr) (index : Nat) (rewritten : Expr) : Except BuildError Expr :=
  if rewritten.same operand then .ok node else node.withOperand index (some rewritten)

/-- Offer a node to a function that may replace it. -/
def offer (f : Expr → StateM σ (Option Expr)) (node : Expr) : EStateM BuildError σ Expr := fun s =>
  let (replacement, s) := f node s
  .ok (replacement.getD node) s

/-- Rewrite the tree bottom-up. What the function gives is not offered again. -/
def replaceWith (f : Expr → StateM σ (Option Expr)) (e : Expr) : EStateM BuildError σ Expr := do
  let node ← e.positions.attach.foldlM (fun node p => do
    let rewritten ← replaceWith f p.1.2
    liftExcept (splice node p.1.2 p.1.1 rewritten)) e
  offer f node
termination_by e.size
decreasing_by exact size_lt_of_mem_positions p.2

/-- How the pass goes through a node. -/
theorem replaceWith_eq (f : Expr → StateM σ (Option Expr)) (e : Expr) :
    e.replaceWith f = (do
      let node ← e.positions.foldlM (fun node p => do
        let rewritten ← p.2.replaceWith f
        liftExcept (splice node p.2 p.1 rewritten)) e
      offer f node) := by
  rw [replaceWith]
  conv => rhs; rw [← List.attach_map_subtype_val e.positions, List.foldlM_map]

/-- Rewrite the tree bottom-up with a function of the node alone. -/
def replace (f : Expr → Option Expr) (e : Expr) : Except BuildError Expr :=
  match (replaceWith (σ := Unit) (fun node => pure (f node)) e).run () with
  | .ok e _ => .ok e
  | .error err _ => .error err

end SqlExpr.Expr
