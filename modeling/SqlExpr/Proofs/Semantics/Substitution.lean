-- SUMMARY: The value of an expression after a pass has put expressions in the place of columns.
import SqlExpr.Proofs.Expr.Rebuild
import SqlExpr.Proofs.Expr.Same
import SqlExpr.Semantics.Eval

/-!
# Substitution

A pass that puts expressions in the place of columns gives what the tree itself evaluates to where
these columns have the values of the expressions (`Expr.eval_replace_substitute`). On its way such a
pass skips operands that compare equal, gives types to constants and makes rows of scalars. Nothing
of this shows in values: expressions that differ in it are `Expr.Alike`.
-/

namespace SqlExpr.Expr

variable {inner env env' : Column → Datum}

/-! ## Expressions of one value -/

/-- The expression `a` evaluates under `env` to what `b` evaluates to under `env'`, and so do the
    fields of the rows that they are. -/
structure Alike (env env' : Column → Datum) (a b : Expr) : Prop where
  value : a.eval env = b.eval env'
  fields : evalList env a.rowFields = evalList env' b.rowFields

theorem evalList_congr {es es' : List Expr}
    (h : List.Forall₂ (fun a b => a.eval env = b.eval env') es es') :
    evalList env es = evalList env' es' := by
  induction h with
  | nil => rfl
  | cons h _ ih => simp only [evalList, h, ih]

theorem evalOption_congr {o o' : Option Expr} (h : Option.Rel (Alike env env') o o') :
    evalOption env o = evalOption env' o' := by
  cases h with
  | none => rfl
  | some h => simp only [evalOption, h.value]

namespace Alike

theorem refl (e : Expr) : Alike env env e e := ⟨rfl, rfl⟩

theorem trans {a b c : Expr} {env'' : Column → Datum} (h : Alike env env' a b)
    (h' : Alike env' env'' b c) : Alike env env'' a c :=
  ⟨h.value.trans h'.value, h.fields.trans h'.fields⟩

theorem rel_refl (o : Option Expr) : Option.Rel (Alike env env) o o := by
  cases o with
  | none => exact .none
  | some e => exact .some (.refl e)

theorem rel_trans {o o' o'' : Option Expr} {env'' : Column → Datum}
    (h : Option.Rel (Alike env env') o o') (h' : Option.Rel (Alike env' env'') o' o'') :
    Option.Rel (Alike env env'') o o'' :=
  Expr.rel_trans (fun _ _ _ hab hbc => hab.trans hbc) h h'

theorem of_row {es es' : List Expr} (h : evalList env es = evalList env' es') :
    Alike env env' (.row es) (.row es') := ⟨rfl, h⟩

/-- Away from rows the values are all there is. -/
theorem of_value {a b : Expr} (ha : a.rowFields = [a]) (hb : b.rowFields = [b])
    (h : a.eval env = b.eval env') : Alike env env' a b := by
  refine ⟨h, ?_⟩
  rw [ha, hb]
  exact evalList_congr (.cons h .nil)

end Alike

private theorem rowFields_of_eval {e : Expr} {v : Datum} (h : e.eval env = some v) :
    e.rowFields = [e] := by
  cases e with
  | row => cases h
  | _ => rfl

/-- The type of a constant does not matter to its value. -/
private theorem SameButTypes.alike {a b : Expr} (h : SameButTypes a b) : Alike env env a b := by
  have single {a b : Expr} (h : SameButType a b) : Alike env env a b := by
    cases h with
    | refl => exact .refl a
    | constant => exact ⟨rfl, rfl⟩
  cases h with
  | single h => exact single h
  | row h => exact .of_row (evalList_congr (h.imp fun _ _ h => (single h).value))

/-! ## Nodes of one value -/

private theorem forall₂_of_getElem? {R : Expr → Expr → Prop} {es es' : List Expr}
    (h : ∀ i : Nat, Option.Rel R es[i]? es'[i]?) : List.Forall₂ R es es' := by
  induction es generalizing es' with
  | nil =>
    cases es' with
    | nil => exact .nil
    | cons => cases h 0
  | cons e es ih =>
    cases es' with
    | nil => cases h 0
    | cons =>
      have hfirst := h 0
      cases hfirst with
      | some hfirst => exact .cons hfirst (ih fun i => h (i + 1))

private theorem evalList_congr_getElem? {es es' : List Expr}
    (h : ∀ i : Nat, Option.Rel (Alike env env') es[i]? es'[i]?) :
    evalList env es = evalList env' es' :=
  evalList_congr ((forall₂_of_getElem? h).imp fun _ _ h => h.value)

/-- Two nodes of one kind are alike if their operands are, unless they are columns. -/
theorem Alike.of_operands {a b : Expr} (hnode : SameNode a b) (hcolumn : ∀ c, a ≠ .column c)
    (h : ∀ i, Option.Rel (Alike env env') (a.operand? i) (b.operand? i)) : Alike env env' a b := by
  cases hnode with
  | column c => exact absurd rfl (hcolumn c)
  | constant c => exact ⟨rfl, rfl⟩
  | call f args args' =>
    simp only [operand?_call] at h
    refine .of_value rfl rfl ?_
    simp only [eval, evalList_congr_getElem? h]
  | row fields fields' =>
    simp only [operand?_row] at h
    exact .of_row (evalList_congr_getElem? h)
  | not e e' =>
    cases h 0 with
    | some h =>
      refine .of_value rfl rfl ?_
      simp only [eval, h.value]
  | arith op l r l' r' | compare op l r l' r' | logical op l r l' r' =>
    cases h 0 with
    | some hl =>
      cases h 1 with
      | some hr =>
        refine .of_value rfl rfl ?_
        simp only [eval, hl.value, hr.value]
  | overlay s r p s' r' p' n n' =>
    cases h 0 with
    | some hs =>
      cases h 1 with
      | some hr =>
        cases h 2 with
        | some hp =>
          have hn : evalOption env n = evalOption env' n' := evalOption_congr (h 3)
          refine .of_value rfl rfl ?_
          simp only [eval, hs.value, hr.value, hp.value, hn]
  | rowCompare op l r l' r' =>
    cases h 0 with
    | some hl =>
      cases h 1 with
      | some hr =>
        have hl : evalList env l = evalList env' l' := hl.fields
        have hr : evalList env r = evalList env' r' := hr.fields
        refine .of_value rfl rfl ?_
        simp only [eval, hl, hr]

/-! ## Expressions that compare equal -/

/-- Values that compare equal are the same datum: floating point numbers are none. -/
private theorem datum?_eq_of_same {v w : Value} (h : v.same w = true) : v.datum? = w.datum? := by
  cases v with
  | float x =>
    cases w with
    | float y => rfl
    | _ => cases h
  | null | bool | int | text | blob =>
    obtain rfl := (Value.same_eq_true_of_not_float (by simp)).1 h
    rfl

theorem Alike.of_same_constant {c : Constant} {b : Expr} (h : (Expr.constant c).same b = true) :
    Alike env env (.constant c) b := by
  cases b with
  | constant c' =>
    simp only [same, Constant.same, Bool.and_eq_true] at h
    exact .of_value rfl rfl (datum?_eq_of_same h.1.1)
  | _ => cases h

/-- Expressions that compare equal have one value. -/
theorem Alike.of_same {a b : Expr} (h : a.same b = true) : Alike env env a b := by
  induction a using operand_induction generalizing b with
  | node a ih =>
    by_cases hconstant : ∃ c, a = .constant c
    · obtain ⟨c, rfl⟩ := hconstant
      exact .of_same_constant h
    · obtain ⟨hnode, hoperands⟩ := sameNode_of_same h fun c hc => hconstant ⟨c, hc⟩
      by_cases hcolumn : ∃ c, a = .column c
      · obtain ⟨c, rfl⟩ := hcolumn
        cases hnode
        exact .refl _
      · refine .of_operands hnode (fun c hc => hcolumn ⟨c, hc⟩) fun i => ?_
        refine rel_imp (rel_join_getElem? hoperands i) fun x hx y hxy => ?_
        have hslot := List.mem_of_getElem? (operand?_eq_some_iff.1 hx)
        exact ih x (mem_operands.2 hslot) hxy

/-! ## Operands exchanged one by one -/

theorem SameNode.held_eq {a b : Expr} (h : SameNode a b) (i : Nat) (v : Option Expr) :
    a.held i v = b.held i v := by
  cases h <;> rfl

/-- What a node makes of an expression that it takes in the place of an operand is still like that
    operand, if the expression is. -/
private theorem exists_held_alike {e o new : Expr} {i : Nat} (ho : e.operand? i = some o)
    (h : Alike inner env o new) : ∃ x, e.held i (some new) = some x ∧ Alike inner env o x := by
  cases e with
  | overlay => exact ⟨new, ite_self _, h⟩
  | rowCompare op l r =>
    match i, ho with
    | 0, rfl => exact ⟨_, rfl, .of_row h.fields⟩
    | 1, rfl => exact ⟨_, rfl, .of_row h.fields⟩
  | _ => exact ⟨new, rfl, h⟩

/-- The node `node` arises on the way from `e` to a node whose operands evaluate under `env` to what
    those of `e` do under `inner`. The operands at the positions `todo` are still those of `e`. -/
structure Midway (inner env : Column → Datum) (e : Expr) (todo : List Nat) (node : Expr) :
    Prop where
  kind : SameNode e node
  done : ∀ i ∉ todo, Option.Rel (Alike inner env) (e.operand? i) (node.operand? i)
  left : ∀ i ∈ todo, Option.Rel (Alike env env) (e.operand? i) (node.operand? i)

namespace Midway

variable {e node node' : Expr}

theorem start (e : Expr) : Midway inner env e (e.positions.map (·.1)) e := by
  refine ⟨.refl e, fun i hi => ?_, fun i _ => Alike.rel_refl _⟩
  cases ho : e.operand? i with
  | none => exact .none
  | some o =>
    refine absurd (List.mem_map.2 ⟨(i, o), ?_, rfl⟩) hi
    exact mem_positions_iff.2 ho

variable {todo : List Nat} {i : Nat} {o new : Expr}

/-- An operand that compares equal to the new one is left in its place. -/
theorem skip (h : Midway inner env e (i :: todo) node) (ho : e.operand? i = some o)
    (hnew : Alike inner env o new) (hsame : new.same o = true) : Midway inner env e todo node := by
  refine ⟨h.kind, fun j hj => ?_, fun j hj => h.left j (List.mem_cons_of_mem _ hj)⟩
  by_cases hji : j = i
  · subst hji
    have hleft := h.left j List.mem_cons_self
    rw [ho] at hleft ⊢
    exact Alike.rel_trans (.some (hnew.trans (.of_same hsame))) hleft
  · exact h.done j (List.not_mem_cons_of_ne_of_not_mem hji hj)

/-- The builder of the node may give types to the other operands as well, also to those that are
    still to be exchanged. -/
theorem exchange (h : Midway inner env e (i :: todo) node) (hi : i ∉ todo)
    (ho : e.operand? i = some o) (hnew : Alike inner env o new)
    (hnode' : node.withOperand i (some new) = .ok node') : Midway inner env e todo node' := by
  have hframe := withOperand_frame hnode'
  have hothers {j : Nat} (hji : j ≠ i) :
      Option.Rel (Alike env env) (node.operand? j) (node'.operand? j) :=
    rel_imp (hframe.others hji) fun _ _ _ => SameButTypes.alike
  refine ⟨h.kind.trans hframe.node, fun j hj => ?_, fun j hj => ?_⟩
  · by_cases hji : j = i
    · subst hji
      obtain ⟨x, hx, halike⟩ := exists_held_alike ho hnew
      have hat := hframe.operand (lt_arity_of_withOperand hnode')
      rw [← h.kind.held_eq, hx] at hat
      rw [ho]
      exact Alike.rel_trans (.some halike) (rel_imp hat fun _ _ _ => SameButTypes.alike)
    · exact Alike.rel_trans (h.done j (List.not_mem_cons_of_ne_of_not_mem hji hj)) (hothers hji)
  · have hji : j ≠ i := fun hji => hi (hji ▸ hj)
    exact Alike.rel_trans (h.left j (List.mem_cons_of_mem _ hj)) (hothers hji)

theorem splice (h : Midway inner env e (i :: todo) node) (hi : i ∉ todo)
    (ho : e.operand? i = some o) (hnew : Alike inner env o new)
    (hnode' : node.splice o i new = .ok node') : Midway inner env e todo node' := by
  obtain ⟨hsame, rfl⟩ | ⟨-, hnode'⟩ := splice_eq_ok_iff.1 hnode'
  · exact h.skip ho hnew hsame
  · exact h.exchange hi ho hnew hnode'

theorem spliceAll {ps : List ((Nat × Expr) × Expr)} (hnodup : (ps.map (·.1.1)).Nodup)
    (hps : ∀ p ∈ ps, e.operand? p.1.1 = some p.1.2 ∧ Alike inner env p.1.2 p.2)
    (h : Midway inner env e (ps.map (·.1.1)) node) (hall : node.spliceAll ps = .ok node') :
    Midway inner env e [] node' := by
  induction ps generalizing node with
  | nil =>
    cases hall
    exact h
  | cons p ps ih =>
    obtain ⟨hi, hnodup⟩ := List.nodup_cons.1 hnodup
    obtain ⟨⟨ho, hnew⟩, hps⟩ := List.forall_mem_cons.1 hps
    obtain ⟨next, hnext, hall⟩ := Except.bind_eq_ok_iff.1 (spliceAll_cons.symm.trans hall)
    exact ih hnodup hps (h.splice hi ho hnew hnext) hall

end Midway

/-- A node into which operands are put that are like the old ones is like the old node. -/
private theorem spliceAll_alike {e node : Expr} {news : List Expr} (hcolumn : ∀ c, e ≠ .column c)
    (h : List.Forall₂ (Alike inner env) e.operands news)
    (hall : e.spliceAll (e.positions.zip news) = .ok node) :
    SameNode e node ∧ Alike inner env e node := by
  have hzip := List.forall₂_iff_zip.1 (List.forall₂_map_left_iff.1 (positions_map_snd e ▸ h))
  have hfst : (e.positions.zip news).map (·.1.1) = e.positions.map (·.1) := by
    have hpositions := List.map_fst_zip (Nat.le_of_eq hzip.1)
    conv => rhs; rw [← hpositions, List.map_map]
    rfl
  have hmid : Midway inner env e [] node := by
    refine Midway.spliceAll (hfst ▸ nodup_positions e) ?_ (hfst ▸ Midway.start e) hall
    intro p hp
    exact ⟨mem_positions_iff.1 (List.of_mem_zip hp).1, hzip.2 hp⟩
  exact ⟨hmid.kind, .of_operands hmid.kind hcolumn fun i => hmid.done i (List.not_mem_nil)⟩

/-! ## Substitution -/

/-- The function of a pass that puts expressions in the place of columns. -/
def substitute (s : Column → Option Expr) : Expr → Option Expr
  | .column c => s c
  | _ => none

/-- Where the data of columns are `inner`, every column of the expression has the value that the
    expression in its place has where they are `env`. A column that stays keeps its datum. -/
def Substituted (s : Column → Option Expr) (env inner : Column → Datum) (e : Expr) : Prop :=
  ∀ c, .column c ∈ e.preorder → ((s c).getD (.column c)).eval env = some (inner c)

variable {s : Column → Option Expr}

theorem Substituted.operand {e o : Expr} (h : Substituted s env inner e) (ho : o ∈ e.operands) :
    Substituted s env inner o := by
  intro c hc
  apply h c
  rw [preorder_eq]
  exact List.mem_cons_of_mem _ (List.mem_flatMap.2 ⟨o, ho, hc⟩)

private theorem substitute_of_sameNode {e node : Expr} (h : SameNode e node)
    (hcolumn : ∀ c, e ≠ .column c) : substitute s node = none := by
  cases h with
  | column c => exact absurd rfl (hcolumn c)
  | _ => rfl

private theorem replaceWith_of_replace {f : Expr → Option Expr} {e e' : Expr}
    (h : e.replace f = .ok e') :
    ∃ t, e.replaceWith (fun node => (pure (f node) : StateM Unit _)) () = .ok e' t :=
  ⟨(), replace_eq_ok_iff.1 h⟩

/-- A tree in which columns are replaced by expressions evaluates to what the tree itself does
    where these columns have the values of the expressions. Neither evaluates if the other does
    not. All columns are replaced at once: what is put in is not searched for columns again. -/
theorem eval_replace_substitute {e e' : Expr} (hinner : Substituted s env inner e)
    (h : e.replace (substitute s) = .ok e') : e'.eval env = e.eval inner := by
  obtain ⟨t, hpass⟩ := replaceWith_of_replace h
  have halike : Substituted s env inner e → Alike inner env e e' := by
    refine @replaceWith_induction Unit _
      (fun e e' => Substituted s env inner e → Alike inner env e e') ?_ e e' () t hpass
    intro e news node _ hoperands hall hinner
    change Alike inner env e ((substitute s node).getD node)
    -- only a column is offered to the map; any other node has its operands exchanged
    by_cases hcolumn : ∃ c, e = .column c
    · obtain ⟨c, rfl⟩ := hcolumn
      cases hall
      have hvalue := hinner c List.mem_cons_self
      exact .of_value rfl (rowFields_of_eval hvalue) hvalue.symm
    · have hcolumn (c : Column) : e ≠ .column c := fun hc => hcolumn ⟨c, hc⟩
      obtain ⟨hlength, hzip⟩ := List.forall₂_iff_zip.1 hoperands
      have hnews : List.Forall₂ (Alike inner env) e.operands news := by
        refine List.forall₂_iff_zip.2 ⟨hlength, fun hmem => ?_⟩
        exact hzip hmem (hinner.operand (List.of_mem_zip hmem).1)
      obtain ⟨hnode, halike⟩ := spliceAll_alike hcolumn hnews hall
      rw [substitute_of_sameNode hnode hcolumn]
      exact halike
  exact (halike hinner).value.symm

/-- Both columns of an overlay are replaced, the position by a sum in which it occurs itself. -/
theorem eval_replace_substitute_in_overlay :
    let name : Column := ⟨none, "name", .varchar none⟩
    let position : Column := ⟨none, "at", .integer⟩
    let next : Expr := .add (.column position) (.bind (.int 1))
    let s : Column → Option Expr := fun c =>
      if c = name then some (.bind (.text "abcd")) else if c = position then some next else none
    let env : Column → Datum := fun _ => .int 1
    let inner : Column → Datum := fun c => if c = name then .text "abcd".toList else .int 2
    let e : Expr := .overlay (.column name) (.bind (.text "XY")) (.column position) none
    let e' : Expr := .overlay (.bind (.text "abcd")) (.bind (.text "XY")) next none
    e.replace (substitute s) = .ok e' ∧ e'.eval env = e.eval inner ∧
      e.eval inner = some (.text "aXYd".toList) := by
  intro name position next s env inner e e'
  have hpass : e.replace (substitute s) = .ok e' := by
    rw [replace, replaceWith_eq, show e.positions =
      [(0, .column name), (1, .bind (.text "XY")), (2, .column position)] from rfl]
    simp only [List.foldlM_cons, replaceWith_leaf (show (Expr.column _).slots = [] from rfl),
      replaceWith_leaf (show (Expr.bind _).slots = [] from rfl)]
    rfl
  have hinner : Substituted s env inner e := by
    intro c hc
    have hc : c = name ∨ c = position := by
      simpa [e, preorder, preorderOption, Expr.bind] using hc
    rcases hc with rfl | rfl
    · rfl
    · rfl
  exact ⟨hpass, eval_replace_substitute hinner hpass, rfl⟩

end SqlExpr.Expr
