-- SUMMARY: The paths that lead to the nodes of a tree, and a fold over the tree as a walk along them.
import SqlExpr.Proofs.Expr.Operand
import SqlExpr.Proofs.Expr.Preorder
import SqlExpr.Proofs.Expr.Rebuild

/-!
# Paths

Two nodes of a tree may be equal, so a node is told by the path that leads to it: the positions of
the operands that are taken from the root on. `Expr.nodeAt?` follows a path by the operands of the
nodes alone, and `Expr.paths` lists the paths that lead to nodes. In lexicographic order these lead
through the preorder of the tree, which is what a fold visits (`Expr.fold_in_preorder`).
-/

namespace SqlExpr.Expr

universe u

variable {α σ : Type u} {e o : Expr} {i : Nat} {path : List Nat}

/-! ## Operands by position -/

/-- The operands that are present are those at the positions below the arity. -/
private theorem operands_eq_filterMap_range (e : Expr) :
    e.operands = (List.range e.arity).filterMap e.operand? := by
  have hslots : e.slots = (List.range e.arity).map e.operand? := by
    refine List.ext_getElem? fun i => ?_
    by_cases hi : i < e.arity
    · simp [getElem?_slots hi, hi]
    · simp [List.getElem?_eq_none (Nat.not_lt.1 hi), hi]
  rw [operands, hslots, List.filterMap_map]
  rfl

/-! ## Paths -/

/-- What a path of operand positions leads to, if it leads to a node. -/
def nodeAt? : Expr → (path : List Nat) → Option Expr
  | e, [] => some e
  | e, i :: path => (e.operand? i).bind (·.nodeAt? path)

theorem nodeAt?_cons : e.nodeAt? (i :: path) = (e.operand? i).bind (·.nodeAt? path) := rfl

private theorem nodeAt?_operand (h : (i, o) ∈ e.positions) :
    e.nodeAt? (i :: path) = o.nodeAt? path := by
  rw [nodeAt?_cons, mem_positions_iff.1 h, Option.bind_some]

/-- The paths that lead to nodes: the empty one, then those that begin with an operand. -/
def paths (e : Expr) : List (List Nat) :=
  [] :: e.positions.attach.flatMap fun p => (paths p.1.2).map (p.1.1 :: ·)
termination_by e.size
decreasing_by exact size_lt_of_mem_positions p.2

theorem paths_eq (e : Expr) :
    e.paths = [] :: e.positions.flatMap fun p => p.2.paths.map (p.1 :: ·) := by
  rw [paths]
  conv => rhs; rw [← List.attach_map_subtype_val e.positions, List.flatMap_map]

private theorem cons_mem_paths :
    i :: path ∈ e.paths ↔ ∃ o, e.operand? i = some o ∧ path ∈ o.paths := by
  simp only [paths_eq e, List.mem_cons, reduceCtorEq, false_or, List.mem_flatMap, List.mem_map,
    List.cons.injEq]
  constructor
  · rintro ⟨⟨j, o⟩, hj, path', hpath, rfl, rfl⟩
    exact ⟨o, mem_positions_iff.1 hj, hpath⟩
  · rintro ⟨o, ho, hpath⟩
    exact ⟨(i, o), mem_positions_iff.2 ho, path, hpath, rfl, rfl⟩

/-- All paths that lead to a node are listed, and no other. -/
private theorem mem_paths_iff : path ∈ e.paths ↔ (e.nodeAt? path).isSome := by
  induction path generalizing e with
  | nil => simp [paths_eq e, nodeAt?]
  | cons i path ih =>
    rw [cons_mem_paths, nodeAt?_cons]
    cases e.operand? i with
    | none => simp
    | some o => simp [ih]

/-- A path stands before those that lead on from it, and before those that turn off to the right. -/
private theorem pairwise_paths (e : Expr) : e.paths.Pairwise (· < ·) := by
  induction e using operand_induction with
  | node e ih =>
    -- the root comes first, the paths through one operand keep its order, and operands go up
    rw [paths_eq, List.pairwise_cons, List.pairwise_flatMap]
    refine ⟨?_, ?_, ?_⟩
    · intro path hpath
      obtain ⟨p, -, hpath⟩ := List.mem_flatMap.1 hpath
      obtain ⟨path, -, rfl⟩ := List.mem_map.1 hpath
      exact List.nil_lt_cons _ _
    · intro p hp
      rw [List.pairwise_map]
      have hbelow := ih p.2 (mem_operands_of_mem_positions hp)
      exact hbelow.imp fun h => List.cons_lt_cons_iff.2 (.inr ⟨rfl, h⟩)
    · refine (pairwise_positions e).imp fun hlt path hpath path' hpath' => ?_
      obtain ⟨path, -, rfl⟩ := List.mem_map.1 hpath
      obtain ⟨path', -, rfl⟩ := List.mem_map.1 hpath'
      exact List.cons_lt_cons_iff.2 (.inl hlt)

/-- The paths lead through the preorder of the tree. -/
private theorem map_nodeAt?_paths (e : Expr) : e.paths.map e.nodeAt? = e.preorder.map some := by
  induction e using operand_induction with
  | node e ih =>
    have hoperand : ∀ p ∈ e.positions,
        (p.2.paths.map (p.1 :: ·)).map e.nodeAt? = p.2.preorder.map some := by
      intro p hp
      rw [← ih p.2 (mem_operands_of_mem_positions hp), List.map_map]
      exact List.map_congr_left fun path _ => nodeAt?_operand hp
    rw [paths_eq, preorder_eq, List.map_cons, List.map_cons, List.map_flatMap, List.map_flatMap,
      List.flatMap_congr hoperand, ← positions_map_snd, List.flatMap_map]
    rfl

/-! ## Folds -/

/-- A function that keeps a state of its own carries it along a list with what it accumulates. -/
private theorem foldl_carrying {β : Type*} (g : α → β → StateM σ α) (l : List β) (a : α) (s : σ) :
    l.foldl (fun p x => g p.1 x p.2) (a, s) = l.foldlM g a s := by
  induction l generalizing a s with
  | nil => rfl
  | cons x l ih =>
    rw [List.foldl_cons, List.foldlM_cons]
    exact ih (g a x s).1 (g a x s).2

/-- A fold over a tree is the fold from the left over the preorder of the tree, also for a function
    that keeps a state of its own. The preorder has the node first, then what the operands that are
    present have, by position. It has what each path leads to, every path once: an absent length of
    an overlay is passed over. -/
theorem fold_in_preorder (f : α → Expr → α) (init : α) (e : Expr) :
    e.fold f init = e.preorder.foldl f init ∧
    (∀ (σ : Type u) (g : α → Expr → StateM σ α) (s : σ),
      e.fold (fun p x => g p.1 x p.2) (init, s) = e.preorder.foldlM g init s) ∧
    e.preorder = e :: ((List.range e.arity).filterMap e.operand?).flatMap preorder ∧
    (e.paths.map e.nodeAt? = e.preorder.map some ∧ e.paths.Pairwise (· < ·) ∧
      ∀ path, path ∈ e.paths ↔ (e.nodeAt? path).isSome) ∧
    ∀ source replacement start, (Expr.overlay source replacement start none).fold f init =
      start.fold f (replacement.fold f (source.fold f
        (f init (.overlay source replacement start none)))) := by
  refine ⟨fold_preorder f init e, fun σ g s => ?_, ?_, ?_, fun source replacement start => ?_⟩
  · rw [fold_preorder, foldl_carrying]
  · rw [← operands_eq_filterMap_range, ← preorder_eq]
  · exact ⟨map_nodeAt?_paths e, pairwise_paths e, fun path => mem_paths_iff⟩
  · rw [fold_eq]
    rfl

end SqlExpr.Expr
