-- SUMMARY: Reading a rendering by the precedence of SQL gives the meaning of the tree.
import SqlExpr.Proofs.Lowering.Basic
import SqlExpr.Proofs.Reading.Phrases
import SqlExpr.Proofs.Reading.Readable
import SqlExpr.Proofs.Render.Writes
import SqlExpr.Proofs.Row.Orders
import SqlExpr.Proofs.Semantics.Lists

/-!
# The meaning of what is read

An expression that can be read back is read as one that evaluates as its lowered tree
(`Expr.Reading`). The two need not be the same tree: chains are read from left to right,
rows of degree one are read as their fields, and every `||` as the concatenation of
character strings.
-/

namespace SqlExpr.Expr

variable {d : Dialect} {env : Column → Datum}

/-! ## The reading of an expression -/

/-- The expression `t` is what the tokens of `e` on a dialect are read as. -/
structure Reading (d : Dialect) (e t : Expr) : Prop where
  isRow : t.isRow = false
  eval (env : Column → Datum) : t.eval env = (e.lower d).eval env
  condition : Reader.ReadsCondition (e.tokens d) t
  operand (h : e.isClosed = true) : Reader.ReadsOperand (e.tokens d) t

private theorem exists_readings (es : List Expr) (h : ∀ e ∈ es, ∃ t, Reading d e t) :
    ∃ read : Expr → Expr, ∀ e ∈ es, Reading d e (read e) := by
  have hread (e : Expr) : ∃ t, e ∈ es → Reading d e t := by
    by_cases he : e ∈ es
    · obtain ⟨t, ht⟩ := h e he
      exact ⟨t, fun _ => ht⟩
    · exact ⟨e, fun he' => absurd he' he⟩
  exact ⟨fun e => Classical.choose (hread e), fun e => Classical.choose_spec (hread e)⟩

theorem Reading.of_operand {e t : Expr} (hrow : t.isRow = false)
    (heval : ∀ env, t.eval env = (e.lower d).eval env)
    (h : Reader.ReadsOperand (e.tokens d) t) : Reading d e t :=
  ⟨hrow, heval, h.condition, fun _ => h⟩

theorem Reading.of_rewrite {e e' t : Expr} (h : e.rewrite d = some e') (ht : Reading d e' t) :
    Reading d e t := by
  refine ⟨ht.isRow, ?_, ?_, ?_⟩
  · intro env
    rw [lower_of_rewrite h, ht.eval env]
  · rw [tokens_of_rewrite h]
    exact ht.condition
  · intro hclosed
    rw [tokens_of_rewrite h]
    exact ht.operand (isClosed_of_rewrite h hclosed)

theorem Reading.column (c : Column) : Reading d (.column c) (.column c) := by
  refine .of_operand rfl (fun env => ?_) ?_
  · rw [lower_column]
  · rw [tokens_column]
    exact .column c

theorem Reading.constant (c : Constant) : Reading d (.constant c) (.constant c) := by
  refine .of_operand rfl (fun env => ?_) ?_
  · rw [lower_constant]
  · rw [tokens_constant]
    exact .constant c

theorem Reading.arith {op : ArithOp} {l r t u : Expr} (hl : Reading d l t) (hr : Reading d r u)
    (h : Readable (.arith op l r)) : Reading d (.arith op l r) (.arith op t u) := by
  obtain ⟨hlc, hrc⟩ := h
  refine .of_operand rfl (fun env => ?_) ?_
  · rw [lower_arith, Expr.eval, Expr.eval, hl.eval env, hr.eval env]
  · rw [tokens_arith]
    exact .arith op (hl.operand hlc) (hr.operand hrc)

theorem Reading.not {e t : Expr} (ht : Reading d e t) : Reading d (.not e) (.not t) := by
  refine ⟨rfl, fun env => ?_, ?_, fun hclosed => by cases hclosed⟩
  · rw [lower_not, Expr.eval, Expr.eval, ht.eval env]
  · rw [tokens_not]
    split
    · rename_i hlogical
      refine (ht.operand ?_).not
      cases e with
      | logical op l r => rfl
      | _ => cases hlogical
    · exact ht.condition.group.not

theorem Reading.overlay {source replacement start s r p : Expr} {length : Option Expr}
    {read : Expr → Expr}
    (hnative : (Expr.overlay source replacement start length).rewrite d = none)
    (hs : Reading d source s) (hr : Reading d replacement r) (hp : Reading d start p)
    (hn : ∀ n ∈ length, Reading d n (read n))
    (h : Readable (.overlay source replacement start length)) :
    Reading d (.overlay source replacement start length) (.overlay s r p (length.map read)) := by
  obtain ⟨hsc, hrc, hpc, hnc⟩ := h
  refine .of_operand rfl (fun env => ?_) ?_
  · have hlength : evalOption env (length.map read) = evalOption env (length.map (lower d)) :=
      evalOption_map_congr fun n hlen => (hn n hlen).eval env
    rw [lower_overlay hnative, Expr.eval, Expr.eval, hs.eval env, hr.eval env, hp.eval env, hlength]
  · rw [tokens_overlay hnative]
    exact .overlay (hs.operand hsc) (hr.operand hrc) (hp.operand hpc) fun n hlen =>
      (hn n hlen).operand (hnc n hlen)

theorem Reading.call {f : Builtin} {args : List Expr} {read : Expr → Expr}
    (hargs : ∀ a ∈ args, Reading d a (read a)) (h : Readable (.call f args)) :
    ∃ t, Reading d (.call f args) t := by
  have heval (env : Column → Datum) :
      evalList env (args.map read) = evalList env (args.map (lower d)) :=
    evalList_map_congr fun a ha => (hargs a ha).eval env
  cases hstyle : d.callStyle f with
  | function =>
    refine ⟨.call f (args.map read), .of_operand rfl ?_ ?_⟩
    · intro env
      simp only [lower_call, Expr.eval, heval]
    · rw [tokens_call_function hstyle]
      exact .call f fun a ha => (hargs a ha).condition
  | operator =>
    have hf : f = .concat ∨ f = .binaryConcat := by
      cases f with
      | concat => exact .inl rfl
      | binaryConcat => exact .inr rfl
      | _ => cases hstyle
    obtain ⟨hlength, hclosed⟩ := h.2 hf
    refine ⟨.call .concat (args.map read), .of_operand rfl ?_ ?_⟩
    · intro env
      simp only [lower_call, Expr.eval, heval]
      rcases hf with rfl | rfl
      · rfl
      · simp only [Datum.call?_binaryConcat]
    · rw [tokens_call_operator hstyle]
      exact .concat hlength fun a ha => (hargs a ha).operand (hclosed a ha)

private theorem isRow_foldl_logical (op : Connective) {e : Expr} (h : e.isRow = false)
    (es : List Expr) : (es.foldl (.logical op) e).isRow = false := by
  induction es generalizing e with
  | nil => exact h
  | cons e' es ih => exact ih rfl

theorem Reading.logical {op : Connective} {l r : Expr} {read : Expr → Expr}
    (h : ∀ x ∈ (Expr.logical op l r).chain op, Reading d x (read x)) :
    ∃ t, Reading d (.logical op l r) t := by
  obtain ⟨first, rest, hchain⟩ := List.exists_cons_of_ne_nil (chain_ne_nil op (.logical op l r))
  rw [hchain] at h
  refine ⟨(rest.map read).foldl (.logical op) (read first), .of_operand ?_ ?_ ?_⟩
  · exact isRow_foldl_logical op (h first List.mem_cons_self).isRow _
  · intro env
    have hvalue (l r : Expr) : ((Expr.logical op l r).lower d).eval env =
        Datum.connect? op ((l.lower d).eval env) ((r.lower d).eval env) := by
      rw [lower_logical]
      rfl
    rw [value_chain (fun e => (e.lower d).eval env) hvalue hchain, eval_foldl_logical,
      (h first List.mem_cons_self).eval env, List.map_map]
    congr 1
    apply List.map_congr_left
    intro x hx
    exact (h x (List.mem_cons_of_mem _ hx)).eval env
  · rw [tokens_logical, hchain]
    exact .logical op fun x hx => (h x hx).condition

/-! ## Comparisons -/

/-- Rows of degree one compare as their fields do. -/
private theorem eval_rowCompare_singleton (op : Comparator) (l r : Expr) :
    (Expr.rowCompare op [l] [r]).eval env = (Expr.compare op l r).eval env := by
  simp only [Expr.eval, evalList, Datum.rowCompare?, Datum.compare?]
  cases l.eval env with
  | none => rfl
  | some a =>
    cases r.eval env with
    | none => rfl
    | some b =>
      simp only [Option.pure_def, Option.bind_eq_bind, Option.bind_some, RowOrder.orders?]
      cases a.order? b with
      | none => rfl
      | some o => simp only [Option.bind_some, RowOrder.compare_singleton]

private theorem isRow_comparison (op : Comparator) (l r : Expr) :
    (Reader.comparison op l r).isRow = false := by
  unfold Reader.comparison
  split
  · rfl
  · rfl

theorem comparison_of_scalar (op : Comparator) {l : Expr} (h : l.isRow = false) (r : Expr) :
    Reader.comparison op l r = .compare op l r := by
  cases l with
  | row fields => cases h
  | _ => rfl

theorem Reading.compare {op : Comparator} {l r t u : Expr} (hl : Reading d l t)
    (hr : Reading d r u) (h : Readable (.compare op l r)) :
    Reading d (.compare op l r) (.compare op t u) := by
  obtain ⟨hlc, hrc⟩ := h
  refine ⟨rfl, fun env => ?_, ?_, fun hclosed => by cases hclosed⟩
  · rw [lower_compare, Expr.eval, Expr.eval, hl.eval env, hr.eval env]
  · rw [tokens_compare, ← comparison_of_scalar op hl.isRow u]
    exact (hl.operand hlc).compare op (hr.operand hrc)

/-- Parentheses around one field lose the row, and with it nothing. -/
private theorem eval_comparison_rowOf (op : Comparator) {left right : List Expr} (hne : left ≠ [])
    (hlength : left.length = right.length) (hscalar : ∀ a ∈ left, a.isRow = false) :
    (Reader.comparison op (Reader.rowOf left) (Reader.rowOf right)).eval env =
      (Expr.rowCompare op left right).eval env := by
  rcases left with _ | ⟨l, _ | ⟨l', left⟩⟩
  · exact absurd rfl hne
  · obtain ⟨r, rfl⟩ := List.length_eq_one_iff.1 hlength.symm
    rw [eval_rowCompare_singleton]
    exact congrArg (eval env) (comparison_of_scalar op (hscalar l List.mem_cons_self) r)
  · rcases right with _ | ⟨r, _ | ⟨r', right⟩⟩
    · cases hlength
    · cases hlength
    · rfl

theorem Reading.rowCompare {op : Comparator} {left right : List Expr} {read : Expr → Expr}
    (hnative : (Expr.rowCompare op left right).rewrite d = none)
    (h : ∀ a ∈ left ++ right, Reading d a (read a))
    (hreadable : Readable (.rowCompare op left right)) :
    ∃ t, Reading d (.rowCompare op left right) t := by
  obtain ⟨hne, hlength, hclosed⟩ := hreadable
  have hleft (a : Expr) (ha : a ∈ left) := h a (List.mem_append_left _ ha)
  have hright (a : Expr) (ha : a ∈ right) := h a (List.mem_append_right _ ha)
  have hne' : right ≠ [] := by
    rintro rfl
    exact hne (List.eq_nil_of_length_eq_zero hlength)
  have hreadLeft :
      Reader.ReadsOperand ((Expr.row left).tokens d) (Reader.rowOf (left.map read)) := by
    rw [tokens_row]
    exact .row hne fun a ha => (hleft a ha).condition
  have hreadRight : Reader.ReadsOperand ((Expr.row right).tokens d)
      (Reader.rowOf (right.map read)) := by
    rw [tokens_row]
    exact .row hne' fun a ha => (hright a ha).condition
  refine ⟨Reader.comparison op (Reader.rowOf (left.map read)) (Reader.rowOf (right.map read)),
    isRow_comparison op _ _, ?_, ?_, fun hclosed => by cases hclosed⟩
  · intro env
    rw [lower_rowCompare hnative, eval_comparison_rowOf]
    · have hls := evalList_map_congr fun a ha => (hleft a ha).eval env
      have hrs := evalList_map_congr fun a ha => (hright a ha).eval env
      simp only [Expr.eval, hls, hrs]
    · simpa using hne
    · simpa using hlength
    · intro a ha
      obtain ⟨x, hx, rfl⟩ := List.mem_map.1 ha
      exact (hleft x hx).isRow
  · rw [tokens_rowCompare hnative]
    split
    · exact hreadLeft.compare op hreadRight.condition.group
    · exact hreadLeft.compare op hreadRight

/-! ## Whole expressions -/

/-- The tokens of an expression are read as one that evaluates as the lowered tree does. -/
private theorem exists_reading (d : Dialect) {e : Expr} (hrow : e.isRow = false)
    (h : e.Everywhere Readable) : ∃ t, Reading d e t := by
  induction e using lowering_induction d with
  | rewritten e e' hrewrite ih =>
    obtain ⟨t, ht⟩ := ih (isRow_of_rewrite hrewrite) (readable_rewrite hrewrite h)
    exact ⟨t, ht.of_rewrite hrewrite⟩
  | column c => exact ⟨_, .column c⟩
  | constant c => exact ⟨_, .constant c⟩
  | call f args ih =>
    obtain ⟨hcall, hargs⟩ := Everywhere.call.1 h
    obtain ⟨read, hread⟩ := exists_readings args fun a ha => ih a ha (hcall.1 a ha) (hargs a ha)
    exact Reading.call hread hcall
  | arith op l r ihl ihr =>
    obtain ⟨hnode, hl, hr⟩ := Everywhere.arith.1 h
    obtain ⟨t, ht⟩ := ihl (isRow_of_isClosed hnode.1) hl
    obtain ⟨u, hu⟩ := ihr (isRow_of_isClosed hnode.2) hr
    exact ⟨_, ht.arith hu hnode⟩
  | compare op l r ihl ihr =>
    obtain ⟨hnode, hl, hr⟩ := Everywhere.compare.1 h
    obtain ⟨t, ht⟩ := ihl (isRow_of_isClosed hnode.1) hl
    obtain ⟨u, hu⟩ := ihr (isRow_of_isClosed hnode.2) hr
    exact ⟨_, ht.compare hu hnode⟩
  | logical op l r ihl ihr ihchain =>
    obtain ⟨read, hread⟩ := exists_readings _ fun x hx =>
      ihchain x hx (isRow_of_mem_chain (fun _ _ _ => id) h hrow hx) (h.of_mem_chain hx)
    exact Reading.logical hread
  | not e ih =>
    obtain ⟨herow, he⟩ := Everywhere.not.1 h
    obtain ⟨t, ht⟩ := ih herow he
    exact ⟨_, ht.not⟩
  | row fields ih => cases hrow
  | overlay source replacement start length hnative ihs ihr ihp ihn =>
    obtain ⟨hnode, hs, hr, hp, hn⟩ := Everywhere.overlay.1 h
    obtain ⟨hsc, hrc, hpc, hnc⟩ := hnode
    obtain ⟨s, hs⟩ := ihs (isRow_of_isClosed hsc) hs
    obtain ⟨r, hr⟩ := ihr (isRow_of_isClosed hrc) hr
    obtain ⟨p, hp⟩ := ihp (isRow_of_isClosed hpc) hp
    obtain ⟨read, hread⟩ := exists_readings length.toList fun n hlen =>
      ihn n (Option.mem_toList.1 hlen) (isRow_of_isClosed (hnc n (Option.mem_toList.1 hlen)))
        (hn n (Option.mem_toList.1 hlen))
    exact ⟨_, .overlay hnative hs hr hp (fun n hlen => hread n (Option.mem_toList.2 hlen))
      ⟨hsc, hrc, hpc, hnc⟩⟩
  | rowCompare op left right hnative ihl ihr =>
    obtain ⟨hnode, hl, hr⟩ := Everywhere.rowCompare.1 h
    obtain ⟨read, hread⟩ := exists_readings (left ++ right) fun a ha => by
      have hrow := isRow_of_isClosed (hnode.2.2 a ha)
      rcases List.mem_append.1 ha with ha | ha
      · exact ihl a ha hrow ((Everywhere.row.1 hl).2 a ha)
      · exact ihr a ha hrow ((Everywhere.row.1 hr).2 a ha)
    exact Reading.rowCompare hnative hread hnode

/-- Where nesting is not limited, a rendering takes up the writes of its expression, and reading
    all of these by the precedence of SQL gives an expression that evaluates as the lowered tree
    does. -/
theorem read_writes {e : Expr} (hrow : e.isRow = false) (h : e.Everywhere Readable) {r : Renderer}
    (hunlimited : r.settings.maxDepth = none) :
    Renderer.visit e r = .ok () (r.takeUp (e.writes r.dialect)) ∧
      ∃ t, Reader.read (e.writes r.dialect) = some t ∧
        ∀ env, t.eval env = (e.lower r.dialect).eval env := by
  obtain ⟨t, ht⟩ := exists_reading r.dialect hrow h
  obtain ⟨s, hrun, stack, e', rfl, hreduce⟩ := ht.condition [] (Nat.zero_le 2)
  have hread := Reader.parse_of_run hrun (hreduce 0 (Nat.zero_le 2))
  exact ⟨Renderer.visit_of_unlimited hunlimited e, t, hread, ht.eval⟩

/-- On Derby, where the overlay, the row comparison and the `||` inside of it are all written in
    other words. -/
theorem read_writes_derby :
    let a : Expr := .column ⟨none, "a", .unknown⟩
    let b : Expr := .column ⟨none, "b", .unknown⟩
    let rows : Expr := .rowCompare .ge [.overlay a b (.bind (.int 2)) none, b] [b, a]
    let e : Expr := .and (.not rows) (.compare .eq a b)
    let r : Renderer := { dialect := .derby }
    e.isRow = false ∧ e.Everywhere Readable ∧ r.settings.maxDepth = none ∧
      ∃ t, Reader.read (e.writes .derby) = some t ∧
        ∀ env, t.eval env = (e.lower .derby).eval env := by
  intro a b rows e r
  have hreadable : e.Everywhere Readable := by
    simp [e, rows, a, b, Expr.and, Expr.bind, Readable, isClosed, isRow]
  exact ⟨rfl, hreadable, rfl, (read_writes (r := r) rfl hreadable rfl).2⟩

end SqlExpr.Expr
