-- SUMMARY: A pass through one node: its operands are rewritten and put into it one by one.
import Mathlib.Data.List.Forall2
import SqlExpr.Expr.Replace

/-!
# A pass through one node

`Expr.replaceWith` rewrites an operand and puts it into the node before it turns to the next
one. The nodes that arise on the way do not reach the function of the pass, so rewriting all
operands first and putting them into the node afterwards gives the same node
(`Expr.rebuilt_eq_ok_iff`).
-/

namespace SqlExpr

theorem EStateM.bind_eq_ok_iff {x : EStateM ε σ α} {g : α → EStateM ε σ β} {b : β} {s s' : σ} :
    (x >>= g) s = .ok b s' ↔ ∃ a t, x s = .ok a t ∧ g a t = .ok b s' := by
  change EStateM.bind x g s = _ ↔ _
  unfold EStateM.bind
  cases x s with
  | error => simp
  | ok a t => exact ⟨fun h => ⟨a, t, rfl, h⟩, by rintro ⟨_, _, ⟨⟩, h⟩; exact h⟩

theorem EStateM.bind_eq_error_iff {x : EStateM ε σ α} {g : α → EStateM ε σ β} {err : ε}
    {s s' : σ} :
    (x >>= g) s = .error err s' ↔
      x s = .error err s' ∨ ∃ a t, x s = .ok a t ∧ g a t = .error err s' := by
  change EStateM.bind x g s = _ ↔ _
  unfold EStateM.bind
  cases x s with
  | error => simp
  | ok a t => simp

/-- A loop that fails has come to a first element at which it does. -/
theorem EStateM.exists_of_foldlM_eq_error {g : β → α → EStateM ε σ β} {as : List α} {b : β}
    {err : ε} {s s' : σ} (h : as.foldlM g b s = .error err s') :
    ∃ before a after b' t, as = before ++ a :: after ∧ before.foldlM g b s = .ok b' t ∧
      g b' a t = .error err s' := by
  induction as generalizing b s with
  | nil => cases h
  | cons a as ih =>
    rw [List.foldlM_cons, EStateM.bind_eq_error_iff] at h
    rcases h with h | ⟨b', t, hfirst, h⟩
    · exact ⟨[], a, as, b, s, rfl, rfl, h⟩
    · obtain ⟨before, c, after, b'', t', rfl, hbefore, h⟩ := ih h
      refine ⟨a :: before, c, after, b'', t', rfl, ?_, h⟩
      rw [List.foldlM_cons]
      exact EStateM.bind_eq_ok_iff.2 ⟨b', t, hfirst, hbefore⟩

namespace Expr

variable {σ : Type} {f : Expr → StateM σ (Option Expr)}

/-- Rewrite the operands of a node from left to right. -/
def rewriteOperands (f : Expr → StateM σ (Option Expr)) (e : Expr) :
    EStateM BuildError σ (List Expr) :=
  e.operands.mapM (·.replaceWith f)

/-- Rewrite one operand and put it into the node. -/
def rebuildStep (f : Expr → StateM σ (Option Expr)) (node : Expr) (p : Nat × Expr) :
    EStateM BuildError σ Expr := do
  let rewritten ← p.2.replaceWith f
  liftExcept (splice node p.2 p.1 rewritten)

/-- The node that the pass offers after it has gone through the operands of `e`. -/
def rebuilt (f : Expr → StateM σ (Option Expr)) (e : Expr) : EStateM BuildError σ Expr :=
  e.positions.foldlM (rebuildStep f) e

/-- Put rewritten operands into a node, each at its position in the place of the old one. -/
def spliceAll (node : Expr) (ps : List ((Nat × Expr) × Expr)) : Except BuildError Expr :=
  ps.foldlM (fun node p => splice node p.1.2 p.1.1 p.2) node

theorem splice_eq_ok_iff {node old new node' : Expr} {i : Nat} :
    node.splice old i new = .ok node' ↔
      new.same old = true ∧ node = node' ∨
        new.same old = false ∧ node.withOperand i (some new) = .ok node' := by
  unfold splice
  split
  case isTrue h => simp [h]
  case isFalse h => simp [h]

theorem splice_eq_error_iff {node old new : Expr} {i : Nat} {err : BuildError} :
    node.splice old i new = .error err ↔
      new.same old = false ∧ node.withOperand i (some new) = .error err := by
  unfold splice
  split
  case isTrue h => simp [h]
  case isFalse h => simp [h]

theorem replaceWith_of_rebuilt {e node : Expr} {s s' : σ} (h : e.rebuilt f s = .ok node s') :
    e.replaceWith f s = offer f node s' := by
  rw [replaceWith_eq]
  change EStateM.bind (e.rebuilt f) (offer f) s = _
  rw [EStateM.bind, h]

/-- To offer a node never fails. -/
theorem replaceWith_eq_error_iff {e : Expr} {err : BuildError} {s s' : σ} :
    e.replaceWith f s = .error err s' ↔ e.rebuilt f s = .error err s' := by
  rw [replaceWith_eq]
  change (e.rebuilt f >>= offer f) s = _ ↔ _
  rw [EStateM.bind_eq_error_iff]
  refine or_iff_left ?_
  rintro ⟨node, t, -, h⟩
  cases h

theorem positions_map_snd (e : Expr) : e.positions.map (·.2) = e.operands := by
  have hfst : e.slots.filterMap id = e.slots.zipIdx.filterMap (·.1) := by
    conv => lhs; rw [← List.zipIdx_map_fst 0 e.slots, List.filterMap_map]
    rfl
  rw [positions, operands, hfst, List.map_filterMap]
  refine congrArg (List.filterMap · _) (funext fun x => ?_)
  obtain ⟨slot, i⟩ := x
  cases slot <;> rfl

theorem mem_operands_of_mem_positions {e : Expr} {p : Nat × Expr} (h : p ∈ e.positions) :
    p.2 ∈ e.operands :=
  positions_map_snd e ▸ List.mem_map_of_mem h

theorem mem_positions {e o : Expr} {i : Nat} :
    (i, o) ∈ e.positions ↔ e.slots[i]? = some (some o) := by
  rw [positions, List.mem_filterMap]
  constructor
  · rintro ⟨⟨slot, j⟩, hmem, hslot⟩
    obtain ⟨o', rfl, heq⟩ := Option.map_eq_some_iff.1 hslot
    cases heq
    exact List.mem_zipIdx_iff_getElem?.1 hmem
  · intro h
    exact ⟨(some o, i), List.mem_zipIdx_iff_getElem?.2 h, rfl⟩

theorem mem_positions_iff {e o : Expr} {i : Nat} :
    (i, o) ∈ e.positions ↔ e.operand? i = some o :=
  mem_positions.trans Option.join_eq_some_iff.symm

/-- The positions of the operands go up. -/
theorem pairwise_positions (e : Expr) : e.positions.Pairwise (·.1 < ·.1) := by
  have hindices : e.slots.zipIdx.Pairwise (·.2 < ·.2) := by
    rw [← List.pairwise_map, List.zipIdx_map_snd]
    exact List.pairwise_lt_range'
  refine hindices.filterMap _ ?_
  intro x y hlt p hp q hq
  obtain ⟨o, -, rfl⟩ := Option.map_eq_some_iff.1 hp
  obtain ⟨o', -, rfl⟩ := Option.map_eq_some_iff.1 hq
  exact hlt

theorem nodup_positions (e : Expr) : (e.positions.map (·.1)).Nodup :=
  List.pairwise_map.2 ((pairwise_positions e).imp Nat.ne_of_lt)

theorem spliceAll_nil (node : Expr) : spliceAll node [] = .ok node := rfl

theorem spliceAll_cons {node : Expr} {p : (Nat × Expr) × Expr} {ps : List ((Nat × Expr) × Expr)} :
    spliceAll node (p :: ps) = splice node p.1.2 p.1.1 p.2 >>= (spliceAll · ps) :=
  List.foldlM_cons

/-- Nothing is done for a node without operands but to offer it. -/
theorem replaceWith_leaf {e : Expr} (h : e.slots = []) : e.replaceWith f = offer f e := by
  rw [replaceWith_eq, positions, h]
  rfl

theorem length_of_mapM {g : Expr → EStateM BuildError σ Expr} {es es' : List Expr} {s s' : σ}
    (h : es.mapM g s = .ok es' s') : es'.length = es.length := by
  induction es generalizing es' s with
  | nil =>
    cases h
    rfl
  | cons e es ih =>
    rw [List.mapM_cons] at h
    obtain ⟨e', t, -, h⟩ := EStateM.bind_eq_ok_iff.1 h
    obtain ⟨rest, t', hrest, h⟩ := EStateM.bind_eq_ok_iff.1 h
    cases h
    rw [List.length_cons, List.length_cons, ih hrest]

theorem mapM_eq_ok {g : Expr → EStateM BuildError σ Expr} {k : Expr → Expr} {es : List Expr} {s : σ}
    (h : ∀ e ∈ es, g e s = .ok (k e) s) : es.mapM g s = .ok (es.map k) s := by
  induction es with
  | nil => rfl
  | cons e es ih =>
    obtain ⟨he, hes⟩ := List.forall_mem_cons.1 h
    rw [List.mapM_cons]
    exact EStateM.bind_eq_ok_iff.2 ⟨_, s, he, EStateM.bind_eq_ok_iff.2 ⟨_, s, ih hes, rfl⟩⟩

theorem liftExcept_eq_ok_iff {x : Except BuildError Expr} {e : Expr} {s s' : σ} :
    (liftExcept x : EStateM BuildError σ Expr) s = .ok e s' ↔ x = .ok e ∧ s' = s := by
  cases x with
  | error err => exact iff_of_false nofun nofun
  | ok a =>
    change EStateM.Result.ok a s = _ ↔ _
    simp [eq_comm]

theorem liftExcept_eq_error_iff {x : Except BuildError Expr} {err : BuildError} {s s' : σ} :
    (liftExcept x : EStateM BuildError σ Expr) s = .error err s' ↔ x = .error err ∧ s' = s := by
  cases x with
  | ok a => exact iff_of_false nofun nofun
  | error err' =>
    change EStateM.Result.error err' s = _ ↔ _
    simp [eq_comm]

private theorem foldlM_rebuildStep_eq_ok_iff {ps : List (Nat × Expr)} {e node : Expr} {s s' : σ} :
    ps.foldlM (rebuildStep f) e s = .ok node s' ↔
      ∃ news, (ps.map (·.2)).mapM (replaceWith f) s = .ok news s' ∧
        spliceAll e (ps.zip news) = .ok node := by
  induction ps generalizing e s with
  | nil =>
    change EStateM.Result.ok e s = _ ↔ ∃ news, EStateM.Result.ok [] s = _ ∧ Except.ok e = _
    constructor
    · intro h
      cases h
      exact ⟨[], rfl, rfl⟩
    · rintro ⟨news, h, h'⟩
      cases h
      cases h'
      rfl
  | cons p ps ih =>
    simp only [List.foldlM_cons, List.map_cons, List.mapM_cons, EStateM.bind_eq_ok_iff,
      rebuildStep, liftExcept_eq_ok_iff]
    constructor
    · rintro ⟨node', t, ⟨new, _, hnew, hsplice, rfl⟩, hrest⟩
      obtain ⟨news, hnews, hall⟩ := ih.1 hrest
      refine ⟨new :: news, ⟨new, t, hnew, news, s', hnews, rfl⟩, ?_⟩
      exact spliceAll_cons.trans (Except.bind_eq_ok_iff.2 ⟨node', hsplice, hall⟩)
    · rintro ⟨_, ⟨new, t, hnew, news, _, hnews, hcons⟩, hall⟩
      cases hcons
      obtain ⟨node', hsplice, hall⟩ := Except.bind_eq_ok_iff.1 (spliceAll_cons.symm.trans hall)
      exact ⟨node', t, ⟨new, t, hnew, hsplice, rfl⟩, ih.2 ⟨news, hnews, hall⟩⟩

/-- A node is rebuilt by rewriting all its operands and putting them into it afterwards. -/
theorem rebuilt_eq_ok_iff_exists {e node : Expr} {s s' : σ} :
    e.rebuilt f s = .ok node s' ↔
      ∃ news, e.rewriteOperands f s = .ok news s' ∧
        spliceAll e (e.positions.zip news) = .ok node := by
  rw [rewriteOperands, ← positions_map_snd]
  exact foldlM_rebuildStep_eq_ok_iff

theorem rebuilt_eq_ok_iff {e node : Expr} {news : List Expr} {s s' s'' : σ}
    (h : e.rewriteOperands f s = .ok news s') :
    e.rebuilt f s = .ok node s'' ↔
      spliceAll e (e.positions.zip news) = .ok node ∧ s'' = s' := by
  rw [rebuilt_eq_ok_iff_exists]
  constructor
  · rintro ⟨news', hnews, hall⟩
    cases h.symm.trans hnews
    exact ⟨hall, rfl⟩
  · rintro ⟨hall, rfl⟩
    exact ⟨news, h, hall⟩

/-! ## Whole passes -/

theorem replaceWith_eq_ok_iff {e e' : Expr} {s s' : σ} :
    e.replaceWith f s = .ok e' s' ↔
      ∃ news node t, e.rewriteOperands f s = .ok news t ∧
        spliceAll e (e.positions.zip news) = .ok node ∧ offer f node t = .ok e' s' := by
  rw [replaceWith_eq]
  change (e.rebuilt f >>= offer f) s = _ ↔ _
  rw [EStateM.bind_eq_ok_iff]
  constructor
  · rintro ⟨node, t, hnode, hoffer⟩
    obtain ⟨news, hnews, hall⟩ := rebuilt_eq_ok_iff_exists.1 hnode
    exact ⟨news, node, t, hnews, hall, hoffer⟩
  · rintro ⟨news, node, t, hnews, hall, hoffer⟩
    exact ⟨node, t, rebuilt_eq_ok_iff_exists.2 ⟨news, hnews, hall⟩, hoffer⟩

theorem replace_eq_ok_iff {f : Expr → Option Expr} {e e' : Expr} :
    e.replace f = .ok e' ↔
      e.replaceWith (fun node => (pure (f node) : StateM Unit (Option Expr))) () = .ok e' () := by
  unfold replace
  split
  case h_1 heq =>
    change e.replaceWith _ () = _ at heq
    simp [heq]
  case h_2 heq =>
    change e.replaceWith _ () = _ at heq
    simp [heq]

private theorem forall₂_of_mapM {g : Expr → EStateM BuildError σ Expr} {R : Expr → Expr → Prop}
    {es news : List Expr} {s s' : σ} (h : es.mapM g s = .ok news s')
    (hR : ∀ e ∈ es, ∀ s e' s', g e s = .ok e' s' → R e e') : List.Forall₂ R es news := by
  induction es generalizing news s with
  | nil =>
    cases h
    exact .nil
  | cons e es ih =>
    rw [List.mapM_cons] at h
    obtain ⟨e', t, he, h⟩ := EStateM.bind_eq_ok_iff.1 h
    obtain ⟨rest, t', hrest, h⟩ := EStateM.bind_eq_ok_iff.1 h
    cases h
    exact .cons (hR e List.mem_cons_self _ _ _ he)
      (ih hrest fun a ha => hR a (List.mem_cons_of_mem _ ha))

/-- To relate every expression to what a pass makes of it, relate every node to what the function
    of the pass makes of it once its operands have been exchanged for related ones. -/
theorem replaceWith_induction {R : Expr → Expr → Prop}
    (node : ∀ e news node s, List.Forall₂ R e.operands news →
      spliceAll e (e.positions.zip news) = .ok node → R e ((f node s).1.getD node))
    {e e' : Expr} {s s' : σ} (h : e.replaceWith f s = .ok e' s') : R e e' := by
  induction e using operand_induction generalizing e' s s' with
  | node e ih =>
    obtain ⟨news, node', t, hnews, hall, hoffer⟩ := replaceWith_eq_ok_iff.1 h
    have hoperands : List.Forall₂ R e.operands news :=
      forall₂_of_mapM hnews fun o ho _ _ _ ho' => ih o ho ho'
    cases hoffer
    exact node e news node' t hoperands hall

end Expr

end SqlExpr
