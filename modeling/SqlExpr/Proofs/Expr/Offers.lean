-- SUMMARY: What a pass offers to its function: every node of the tree once, in postorder, up to where the pass ends.
import SqlExpr.Proofs.Expr.Obtainable
import SqlExpr.Proofs.Expr.Preorder

/-!
# What a pass offers

`Expr.replaceWith` goes through the operands of the node that it was given, while the node that it
rebuilds may come to hold other operands. `Offers x y nodes` says that the computation `y` does what
`x` does and lists nodes of the same kinds as `nodes` on the way, or the first of these if it fails.
It composes along the operands of a node, so the pass offers the nodes of the tree in postorder
(`Expr.offered_in_postorder`), and a pass that replaces nothing offers just these nodes and gives
the tree back (`Expr.replace_none`).
-/

namespace SqlExpr.Expr

variable {σ : Type}

/-- The function of a pass that also lists the nodes that it is offered, the last one at the end. -/
def recording (f : Expr → StateM σ (Option Expr)) (node : Expr) :
    StateM (σ × List Expr) (Option Expr) := fun (s, offered) =>
  let (replacement, s) := f node s
  (replacement, (s, offered ++ [node]))

variable {f : Expr → StateM σ (Option Expr)}

/-! ## Computations that offer nodes -/

/-- Two outcomes that are alike but for the list that the second one has behind `seen`: it has
    nodes of the same kinds as `nodes`, or the first of these if the outcome is a failure. -/
inductive Offered (nodes seen : List Expr) (Q : α → Prop) :
    EStateM.Result BuildError σ α → EStateM.Result BuildError (σ × List Expr) α → Prop
  | ok {a : α} {s : σ} {offered : List Expr} (h : List.Forall₂ SameNode nodes offered) (ha : Q a) :
    Offered nodes seen Q (.ok a s) (.ok a (s, seen ++ offered))
  | error {err : BuildError} {s : σ} {front offered : List Expr} (hfront : front <+: nodes)
    (h : List.Forall₂ SameNode front offered) :
    Offered nodes seen Q (.error err s) (.error err (s, seen ++ offered))

/-- The computation `y` does what `x` does and lists nodes of the kinds of `nodes`. What comes out
    has the property `Q`. -/
def Offers (x : EStateM BuildError σ α) (y : EStateM BuildError (σ × List Expr) α)
    (nodes : List Expr) (Q : α → Prop) : Prop :=
  ∀ s seen, Offered nodes seen Q (x s) (y (s, seen))

private theorem sameNode_of_splice {node old new node' : Expr} {i : Nat}
    (h : node.splice old i new = .ok node') : SameNode node node' := by
  obtain ⟨-, rfl⟩ | ⟨-, h⟩ := splice_eq_ok_iff.1 h
  · exact .refl node
  · exact (withOperand_frame h).node

namespace Offers

variable {x : EStateM BuildError σ α} {y : EStateM BuildError (σ × List Expr) α}
  {nodes nodes' : List Expr} {Q : α → Prop}

theorem weaken {R : α → Prop} (h : Offers x y nodes Q) (himp : ∀ a, Q a → R a) :
    Offers x y nodes R := by
  intro s seen
  have hout := h s seen
  generalize x s = rx, y (s, seen) = ry at hout ⊢
  cases hout with
  | ok h ha => exact .ok h (himp _ ha)
  | error hfront h => exact .error hfront h

theorem bind {k : α → EStateM BuildError σ β} {k' : α → EStateM BuildError (σ × List Expr) β}
    {R : β → Prop} (hx : Offers x y nodes Q) (hk : ∀ a, Q a → Offers (k a) (k' a) nodes' R) :
    Offers (x >>= k) (y >>= k') (nodes ++ nodes') R := by
  intro s seen
  change Offered _ seen R (EStateM.bind x k s) (EStateM.bind y k' (s, seen))
  unfold EStateM.bind
  have hfirst := hx s seen
  generalize x s = rx, y (s, seen) = ry at hfirst
  cases hfirst with
  | error hfront h => exact .error (hfront.trans (List.prefix_append _ _)) h
  | @ok a s offered h ha =>
    have hnext := hk a ha s (seen ++ offered)
    dsimp only
    generalize k a s = rx, k' a (s, seen ++ offered) = ry at hnext
    cases hnext with
    | ok h' hb =>
      rw [List.append_assoc]
      exact .ok (List.rel_append h h') hb
    | error hfront h' =>
      rw [List.append_assoc]
      exact .error ((List.prefix_append_right_inj _).2 hfront) (List.rel_append h h')

/-- Building offers nothing. -/
theorem lift (x : Except BuildError α) :
    Offers (liftExcept x : EStateM BuildError σ α) (liftExcept x) [] (x = .ok ·) := by
  intro s seen
  nth_rewrite 2 [← List.append_nil seen]
  cases x with
  | ok a => exact .ok .nil rfl
  | error err => exact .error List.nil_prefix .nil

theorem offer {e node : Expr} (h : SameNode e node) :
    Offers (Expr.offer f node) (Expr.offer (recording f) node) [e] fun _ => True :=
  fun _ _ => .ok (.cons h .nil) trivial

/-- The pass through the tree offers the kinds of nodes that the tree has. -/
def Through (f : Expr → StateM σ (Option Expr)) (e : Expr) : Prop :=
  Offers (e.replaceWith f) (e.replaceWith (recording f)) e.postorder fun _ => True

theorem step {e node : Expr} {p : Nat × Expr} (hp : Through f p.2) (hnode : SameNode e node) :
    Offers (rebuildStep f node p) (rebuildStep (recording f) node p) p.2.postorder
      (SameNode e) := by
  rw [← List.append_nil p.2.postorder]
  refine hp.bind fun new _ => (lift _).weaken fun node' h => ?_
  exact hnode.trans (sameNode_of_splice h)

theorem steps {ps : List (Nat × Expr)} {e node : Expr} (hps : ∀ p ∈ ps, Through f p.2)
    (hnode : SameNode e node) :
    Offers (ps.foldlM (rebuildStep f) node) (ps.foldlM (rebuildStep (recording f)) node)
      (ps.flatMap (·.2.postorder)) (SameNode e) := by
  induction ps generalizing node with
  | nil => exact (lift (.ok node)).weaken fun node' h => Except.ok.inj h ▸ hnode
  | cons p ps ih =>
    obtain ⟨hp, hps⟩ := List.forall_mem_cons.1 hps
    rw [List.foldlM_cons, List.foldlM_cons, List.flatMap_cons]
    exact (step hp hnode).bind fun node' hnode' => ih hps hnode'

theorem rebuilt {e : Expr} (h : ∀ o ∈ e.operands, Through f o) :
    Offers (e.rebuilt f) (e.rebuilt (recording f)) (e.operands.flatMap postorder)
      (SameNode e) := by
  rw [← positions_map_snd, List.flatMap_map]
  exact steps (fun p hp => h p.2 (mem_operands_of_mem_positions hp)) (.refl e)

theorem through (f : Expr → StateM σ (Option Expr)) (e : Expr) : Through f e := by
  induction e using operand_induction with
  | node e ih =>
    rw [Through, replaceWith_eq, replaceWith_eq, postorder_eq]
    exact (rebuilt ih).bind fun node h => offer h

end Offers

/-! ## Where a pass fails -/

/-- The pass from the state `s` ends with `err` in the state `s'`: all operands before one were
    rewritten and put into the node, and then either that operand was rewritten to another one
    that the node does not take, or the pass through that operand ended so. -/
inductive Aborts (f : Expr → StateM σ (Option Expr)) : Expr → σ → BuildError → σ → Prop
  | splice {e node o new : Expr} {i : Nat} {before after : List (Nat × Expr)} {s t s' : σ}
      {err : BuildError} (hpositions : e.positions = before ++ (i, o) :: after)
      (hbefore : before.foldlM (rebuildStep f) e s = .ok node t)
      (hnew : o.replaceWith f t = .ok new s') (hdiffers : new.same o = false)
      (h : node.withOperand i (some new) = .error err) : Aborts f e s err s'
  | operand {e node o : Expr} {i : Nat} {before after : List (Nat × Expr)} {s t s' : σ}
      {err : BuildError} (hpositions : e.positions = before ++ (i, o) :: after)
      (hbefore : before.foldlM (rebuildStep f) e s = .ok node t)
      (h : Aborts f o t err s') : Aborts f e s err s'

private theorem aborts_of_rebuilt {e : Expr} {err : BuildError} {s s' : σ}
    (hoperands : ∀ o ∈ e.operands, ∀ s, o.replaceWith f s = .error err s' → Aborts f o s err s')
    (h : e.rebuilt f s = .error err s') : Aborts f e s err s' := by
  obtain ⟨before, ⟨i, o⟩, after, node, t, hpositions, hbefore, h⟩ :=
    EStateM.exists_of_foldlM_eq_error h
  rw [rebuildStep, EStateM.bind_eq_error_iff] at h
  rcases h with h | ⟨new, t', hnew, h⟩
  · refine .operand hpositions hbefore (hoperands o ?_ t h)
    rw [← positions_map_snd, hpositions]
    simp
  · obtain ⟨herr, rfl⟩ := liftExcept_eq_error_iff.1 h
    obtain ⟨hdiffers, herr⟩ := splice_eq_error_iff.1 herr
    exact .splice hpositions hbefore hnew hdiffers herr

private theorem aborts_of_replaceWith {e : Expr} {err : BuildError} {s s' : σ}
    (h : e.replaceWith f s = .error err s') : Aborts f e s err s' := by
  induction e using operand_induction generalizing s with
  | node e ih =>
    exact aborts_of_rebuilt (fun o ho s h => ih o ho h) (replaceWith_eq_error_iff.1 h)

/-! ## Whole passes -/

private theorem names_eq_of_forall₂ {nodes offered : List Expr}
    (h : List.Forall₂ SameNode nodes offered) :
    offered.map (·.kind.name) = nodes.map (·.kind.name) := by
  induction h with
  | nil => rfl
  | cons h _ ih => rw [List.map_cons, List.map_cons, ih, h.kind_eq]

/-- A pass through a tree offers every node of the tree once, in postorder, as far as it comes:
    nodes with the names of the old ones, whatever its function puts in the places of operands.
    If the pass fails, some nodes have not been offered, the root among them, and the first operand
    that does not fit into its node gave the error. -/
theorem offered_in_postorder (f : Expr → StateM σ (Option Expr)) (e : Expr) (s : σ) :
    e.postorder.Perm (e.fold (fun nodes x => nodes ++ [x]) []) ∧
    ((∃ e' s' offered, e.replaceWith f s = .ok e' s' ∧
        e.replaceWith (recording f) (s, []) = .ok e' (s', offered) ∧
        List.Forall₂ SameNode e.postorder offered ∧
        offered.map (·.kind.name) = e.postorder.map (·.kind.name)) ∨
      ∃ err s' offered front rest, e.replaceWith f s = .error err s' ∧
        e.replaceWith (recording f) (s, []) = .error err (s', offered) ∧
        e.postorder = front ++ rest ∧ rest ≠ [] ∧
        List.Forall₂ SameNode front offered ∧
        offered.map (·.kind.name) = front.map (·.kind.name) ∧ Aborts f e s err s') := by
  constructor
  · have hvisited : e.fold (fun nodes x => nodes ++ [x]) [] = e.preorder := by
      rw [fold_preorder, List.foldl_append_eq_append, ← List.flatMap_def, List.flatMap_singleton']
      rfl
    exact hvisited ▸ postorder_perm_preorder e
  · -- the root is offered last, so a pass that fails does so among the operands
    have hout := Offers.rebuilt (fun o (_ : o ∈ e.operands) => Offers.through f o) s []
    generalize hx : e.rebuilt f s = rx, hy : e.rebuilt (recording f) (s, []) = ry at hout
    cases hout with
    | @ok node t offered h hnode =>
      have hall : List.Forall₂ SameNode e.postorder (offered ++ [node]) :=
        postorder_eq e ▸ List.rel_append h (.cons hnode .nil)
      exact .inl ⟨_, _, _, replaceWith_of_rebuilt hx, replaceWith_of_rebuilt hy, hall,
        names_eq_of_forall₂ hall⟩
    | @error err t front offered hfront h =>
      obtain ⟨rest, hrest⟩ := hfront
      have hx := replaceWith_eq_error_iff.2 hx
      refine .inr ⟨err, t, offered, front, rest ++ [e], hx, replaceWith_eq_error_iff.2 hy, ?_,
        by simp, h, names_eq_of_forall₂ h, aborts_of_replaceWith hx⟩
      rw [postorder_eq, ← hrest, List.append_assoc]

/-! ## Passes that replace nothing -/

theorem TakesBack.splice_self {e o : Expr} {i : Nat} (h : TakesBack e)
    (ho : (i, o) ∈ e.positions) : e.splice o i o = .ok e := by
  have hslot := mem_positions.1 ho
  have hback := h i (List.getElem?_eq_some_iff.1 hslot).1
  rw [operand?_eq_some_iff.2 hslot] at hback
  -- a NaN in the operand is the case in which it is put back
  cases hsame : o.same o with
  | true => exact splice_eq_ok_iff.2 (.inl ⟨hsame, rfl⟩)
  | false => exact splice_eq_ok_iff.2 (.inr ⟨hsame, hback⟩)

/-- If the passes through the operands of a node lead back to these, the node is rebuilt as it is. -/
private theorem TakesBack.foldlM_rebuildStep {e : Expr} {ps : List (Nat × Expr)} {g : σ → Expr → σ}
    {s : σ} (h : TakesBack e) (hps : ∀ p ∈ ps, p ∈ e.positions)
    (hoperands : ∀ p ∈ ps, ∀ s, p.2.replaceWith f s = .ok p.2 (p.2.postorder.foldl g s)) :
    ps.foldlM (rebuildStep f) e s = .ok e ((ps.flatMap (·.2.postorder)).foldl g s) := by
  induction ps generalizing s with
  | nil => rfl
  | cons p ps ih =>
    obtain ⟨hp, hps⟩ := List.forall_mem_cons.1 hps
    obtain ⟨hoperand, hoperands⟩ := List.forall_mem_cons.1 hoperands
    rw [List.foldlM_cons, List.flatMap_cons, List.foldl_append, EStateM.bind_eq_ok_iff]
    refine ⟨e, p.2.postorder.foldl g s, ?_, ih hps hoperands⟩
    refine EStateM.bind_eq_ok_iff.2 ⟨p.2, _, hoperand s, ?_⟩
    exact liftExcept_eq_ok_iff.2 ⟨h.splice_self hp, rfl⟩

/-- A pass that replaces nothing leaves an obtainable expression as it is, down to every type and
    every bit, also where a part of it does not compare equal to itself. Its function has been
    offered the nodes of the expression. -/
theorem Obtainable.replaceWith_eq_self {e : Expr} (he : e.Obtainable)
    (hf : ∀ node s, (f node s).1 = none) (s : σ) :
    e.replaceWith f s = .ok e (e.postorder.foldl (fun s node => (f node s).2) s) := by
  induction e using operand_induction generalizing s with
  | node e ih =>
    have hback : TakesBack e := he.everywhere_sound.self.made.takesBack
    have hoperands : ∀ p ∈ e.positions, ∀ s, p.2.replaceWith f s =
        .ok p.2 (p.2.postorder.foldl (fun s node => (f node s).2) s) := by
      intro p hp
      have ho : p.2 ∈ e.operands := mem_operands_of_mem_positions hp
      exact ih p.2 ho (.operand he ho)
    rw [replaceWith_of_rebuilt (hback.foldlM_rebuildStep (fun p hp => hp) hoperands),
      postorder_eq, List.foldl_append, ← positions_map_snd, List.flatMap_map]
    exact congrArg (EStateM.Result.ok · _) (congrArg (·.getD e) (hf e _))

/-- A pass that replaces nothing gives the expression back that it was given, down to every type and
    every bit, if the expression can be obtained at all. Its function is offered the nodes of the
    expression itself. -/
theorem replace_none {e : Expr} (he : e.Obtainable) :
    e.replace (fun _ => none) = .ok e ∧
    ∀ (σ : Type) (f : Expr → StateM σ (Option Expr)), (∀ node s, (f node s).1 = none) →
      ∀ s, e.replaceWith f s = .ok e (e.postorder.foldl (fun s node => (f node s).2) s) :=
  ⟨replace_eq_ok_iff.2 (he.replaceWith_eq_self (fun _ _ => rfl) ()),
    fun _ _ hf s => he.replaceWith_eq_self hf s⟩

/-- A NaN, a negative zero, a `NULL` that got a type and one that did not, and an overlay without a
    length: the expression does not compare equal to itself, and the pass gives it back. -/
theorem replace_none_nan :
    let n : Expr := .column ⟨none, "n", .integer⟩
    let x : Expr := .column ⟨none, "x", .double⟩
    let nan : Expr := .bind (.float ⟨0x7FF8000000000000⟩)
    let zero : Expr := .literal (.float ⟨0x8000000000000000⟩)
    let c : RowCompare := ⟨.lt, ⟨[.null .integer, nan]⟩, ⟨[n, x]⟩⟩
    let o : Overlay := ⟨.bind (.text "abc"), .null (.varchar none), n.add zero, none⟩
    let e : Expr := .and c.toExpr (.not (.compare .eq o.toExpr (.call .concat [.null .unknown])))
    let counting : Expr → StateM Nat (Option Expr) := fun _ count => (none, count + 1)
    e.replace (fun _ => none) = .ok e ∧ e.replaceWith counting 0 = .ok e 18 ∧
      e.same e = false := by
  intro n x nan zero c o e counting
  have hn : Obtainable n := .column _
  have hleft : Obtainable (.row [.null .unknown, nan]) :=
    .rowOf (.null _) (List.forall_mem_singleton.2 (.bind _))
  have hright : Obtainable (.row [n, x]) := .rowOf hn (List.forall_mem_singleton.2 (.column _))
  have hc : Obtainable c.toExpr := .rowCompare hleft hright rfl
  have ho : Obtainable o.toExpr := by
    refine @Obtainable.overlay (some (.bind (.text "abc"))) none (some (n.add zero)) none o
      ?_ ?_ ?_ ?_ rfl
    · exact fun e he => Option.some.inj he ▸ .bind _
    · exact fun e he => nomatch he
    · exact fun e he => Option.some.inj he ▸ .arith _ hn (.literal _)
    · exact fun e he => nomatch he
  have hconcat : Obtainable (.call .concat [.null .unknown]) :=
    .call _ fun a ha => List.mem_singleton.1 ha ▸ .null _
  have he : Obtainable e := .logical _ hc (.not (.compare _ ho hconcat))
  obtain ⟨hreplace, hcounting⟩ := replace_none he
  exact ⟨hreplace, hcounting Nat counting (fun _ _ => rfl) 0, rfl⟩

end SqlExpr.Expr
