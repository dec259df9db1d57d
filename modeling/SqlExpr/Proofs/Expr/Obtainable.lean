-- SUMMARY: The expressions that can be obtained at all, and that each takes back its own operands.
import SqlExpr.Proofs.Expr.Operand
import SqlExpr.Proofs.Expr.Everywhere
import SqlExpr.Proofs.Expr.Rebuild

/-!
# Obtainable expressions

`Expr.Obtainable` holds of every expression that building, taking operands out and changing
operands can lead to, in any order. Whole passes lead to nothing else. Overlays and row
comparisons among these have been through their builders, which leave alone what they made, so an
operand that is put back where it came from changes nothing (`Expr.withOperand_operand_self`).
-/

namespace SqlExpr.Expr

/-- The expression comes out of the builders, or out of an obtainable expression as an operand or
    by changing an operand. -/
inductive Obtainable : Expr → Prop
  | column (c : Column) : Obtainable (.column c)
  | bind (v : Value) : Obtainable (.bind v)
  | literal (v : Value) : Obtainable (.literal v)
  | null (t : DataType) : Obtainable (.null t)
  | call (f : Builtin) {args : List Expr} (hargs : ∀ a ∈ args, Obtainable a) :
    Obtainable (.call f args)
  | arith (op : ArithOp) {l r : Expr} (hl : Obtainable l) (hr : Obtainable r) :
    Obtainable (.arith op l r)
  | compare (op : Comparator) {l r : Expr} (hl : Obtainable l) (hr : Obtainable r) :
    Obtainable (.compare op l r)
  | logical (op : Connective) {l r : Expr} (hl : Obtainable l) (hr : Obtainable r) :
    Obtainable (.logical op l r)
  | not {e : Expr} (he : Obtainable e) : Obtainable (.not e)
  | row {fields : List Expr} {r : Row} (hfields : ∀ a ∈ fields, Obtainable a)
      (h : Row.new fields = .ok r) : Obtainable r.toExpr
  | overlay {source replacement start length : Option Expr} {o : Overlay}
      (hsource : ∀ e ∈ source, Obtainable e) (hreplacement : ∀ e ∈ replacement, Obtainable e)
      (hstart : ∀ e ∈ start, Obtainable e) (hlength : ∀ e ∈ length, Obtainable e)
      (h : Overlay.ofOperands source replacement start length = .ok o) : Obtainable o.toExpr
  | rowCompare {op : Comparator} {left right : Expr} {c : RowCompare}
      (hleft : Obtainable left) (hright : Obtainable right)
      (h : RowCompare.new op (.ofExpr left) (.ofExpr right) = .ok c) : Obtainable c.toExpr
  | operand {e o : Expr} (he : Obtainable e) (h : o ∈ e.operands) : Obtainable o
  | withOperand {e e' : Expr} {i : Nat} {v : Option Expr} (he : Obtainable e)
      (hv : ∀ x ∈ v, Obtainable x) (h : e.withOperand i v = .ok e') : Obtainable e'

theorem Obtainable.rowOf {a : Expr} {fields : List Expr} (ha : Obtainable a)
    (hfields : ∀ b ∈ fields, Obtainable b) : Obtainable (.row (a :: fields)) :=
  @Obtainable.row (a :: fields) ⟨a :: fields⟩ (List.forall_mem_cons.2 ⟨ha, hfields⟩) rfl

theorem Obtainable.everywhere {e : Expr} (h : Obtainable e) : e.Everywhere Obtainable := by
  induction e using operand_induction with
  | node e ih => exact Everywhere.iff_operands.2 ⟨h, fun o ho => ih o ho (.operand h ho)⟩

/-! ## Passes -/

variable {σ : Type} {f : Expr → StateM σ (Option Expr)}

theorem Obtainable.splice {node old new node' : Expr} {i : Nat} (hnode : Obtainable node)
    (hnew : Obtainable new) (h : node.splice old i new = .ok node') : Obtainable node' := by
  obtain ⟨-, rfl⟩ | ⟨-, h⟩ := splice_eq_ok_iff.1 h
  · exact hnode
  · refine .withOperand hnode ?_ h
    intro x hx
    cases hx
    exact hnew

theorem Obtainable.spliceAll {node node' : Expr} {ps : List ((Nat × Expr) × Expr)}
    (hnode : Obtainable node) (hps : ∀ p ∈ ps, Obtainable p.2)
    (h : node.spliceAll ps = .ok node') : Obtainable node' := by
  induction ps generalizing node with
  | nil =>
    cases h
    exact hnode
  | cons p ps ih =>
    obtain ⟨next, hnext, h⟩ := Except.bind_eq_ok_iff.1 (spliceAll_cons.symm.trans h)
    obtain ⟨hp, hps⟩ := List.forall_mem_cons.1 hps
    exact ih (hnode.splice hp hnext) hps h

/-- A pass makes obtainable expressions of obtainable ones, if its function does. -/
theorem Obtainable.replaceWith {e e' : Expr} {s s' : σ}
    (hf : ∀ node s, Obtainable node → ∀ x ∈ (f node s).1, Obtainable x) (he : Obtainable e)
    (h : e.replaceWith f s = .ok e' s') : Obtainable e' := by
  refine @replaceWith_induction σ f (fun e e' => Obtainable e → Obtainable e') ?_ e e' s s' h he
  intro e news node s hoperands hall he
  have hnews : ∀ new ∈ news, Obtainable new := by
    intro new hnew
    obtain ⟨o, ho, hkept⟩ := exists_mem_of_forall₂ hoperands hnew
    exact hkept (.operand he ho)
  have hnode : Obtainable node :=
    he.spliceAll (fun p hp => hnews p.2 (List.of_mem_zip hp).2) hall
  cases hx : (f node s).1 with
  | none => exact hnode
  | some x => exact hf node s hnode x hx

/-! ## What builders leave behind -/

/-- If the node is an overlay or a row comparison, its builder made it. -/
def Made : Expr → Prop
  | .overlay s r p n => ∃ source replacement start length,
    Overlay.ofOperands source replacement start length = .ok ⟨s, r, p, n⟩
  | .rowCompare op l r => ∃ left right, RowCompare.new op left right = .ok ⟨op, ⟨l⟩, ⟨r⟩⟩
  | _ => True

theorem made_of_ofOperands {source replacement start length : Option Expr} {o : Overlay}
    (h : Overlay.ofOperands source replacement start length = .ok o) : Made o.toExpr :=
  ⟨source, replacement, start, length, h⟩

theorem made_of_new {op : Comparator} {l r : Row} {c : RowCompare}
    (h : RowCompare.new op l r = .ok c) : Made c.toExpr := by
  obtain rfl := RowCompare.op_of_new h
  exact ⟨l, r, h⟩

private theorem made_of_withOperand {e e' : Expr} {i : Nat} {v : Option Expr}
    (h : e.withOperand i v = .ok e') : Made e' := by
  have hnode := (withOperand_frame h).node
  have hi := lt_arity_of_withOperand h
  unfold Expr.withOperand at h
  rw [if_neg (Nat.not_le.2 hi)] at h
  cases hnode with
  | overlay s r p s' r' p' n n' =>
    obtain ⟨o, ho, hnew⟩ := Except.map_eq_ok_iff.1 h
    obtain ⟨_, _, _, _, ho⟩ := Overlay.exists_ofOperands_of_setOperand ho
    rw [← hnew]
    exact made_of_ofOperands ho
  | rowCompare op l r l' r' =>
    obtain ⟨x, -, h⟩ := Except.bind_eq_ok_iff.1 h
    obtain ⟨c, hc, hnew⟩ := Except.map_eq_ok_iff.1 h
    obtain ⟨_, _, hc⟩ := RowCompare.exists_new_of_setOperand hc
    rw [← hnew]
    exact made_of_new hc
  | _ => trivial

/-- If the node is a row, it has a field. -/
def HasField : Expr → Prop
  | .row fields => fields ≠ []
  | _ => True

private theorem hasField_of_withOperand {e e' : Expr} {i : Nat} {v : Option Expr}
    (h : e.withOperand i v = .ok e') (he : HasField e) : HasField e' := by
  obtain ⟨hnode, hslots⟩ := withOperand_frame h
  cases hnode with
  | row fields fields' =>
    have hlength : fields.length = fields'.length := by
      simpa [slots] using hslots.length_eq
    exact fun hnil => he (List.eq_nil_of_length_eq_zero (hlength.trans (congrArg _ hnil)))
  | _ => trivial

/-- The node is as building leaves it. -/
structure Sound (e : Expr) : Prop where
  made : Made e
  hasField : HasField e

private theorem sound_of_withOperand {e e' : Expr} {i : Nat} {v : Option Expr}
    (h : e.withOperand i v = .ok e') (he : Sound e) : Sound e' :=
  ⟨made_of_withOperand h, hasField_of_withOperand h he.hasField⟩

/-- Types of constants do not matter to whether everything is as building leaves it. -/
private theorem SameButTypes.everywhere_sound {e e' : Expr} (h : SameButTypes e e')
    (he : e.Everywhere Sound) : e'.Everywhere Sound := by
  have single {a b : Expr} (h : SameButType a b) (ha : a.Everywhere Sound) :
      b.Everywhere Sound := by
    cases h with
    | refl => exact ha
    | constant c t => exact Everywhere.constant.2 ⟨trivial, trivial⟩
  cases h with
  | single h => exact single h he
  | row h =>
    obtain ⟨hnode, hfields⟩ := Everywhere.row.1 he
    refine Everywhere.row.2 ⟨⟨trivial, ?_⟩, fun b hb => ?_⟩
    · rintro rfl
      exact hnode.hasField (List.forall₂_nil_right_iff.1 h)
    · obtain ⟨a, ha, hab⟩ := exists_mem_of_forall₂ h hb
      exact single hab (hfields a ha)

/-! A property reaches every node of what a node is given, if a `NULL` and a row of one field have
it. -/

namespace Everywhere

variable {P : Expr → Prop}

/-- An expression has a property everywhere if its node has it and its operands came out of others
    that have it everywhere, by changes that keep it. -/
theorem of_slots {R : Expr → Expr → Prop} (hR : ∀ a b, R a b → a.Everywhere P → b.Everywhere P)
    {e : Expr} {slots : List (Option Expr)} (he : P e)
    (h : List.Forall₂ (Option.Rel R) slots e.slots)
    (hslots : ∀ o, some o ∈ slots → o.Everywhere P) : e.Everywhere P := by
  refine iff_operands.2 ⟨he, fun o ho => ?_⟩
  obtain ⟨slot, hslot, hrel⟩ := exists_mem_of_forall₂ h (mem_operands.1 ho)
  cases hrel with
  | some hrel => exact hR _ _ hrel (hslots _ hslot)

theorem getD_null (hnull : ∀ t, P (.null t)) {v : Option Expr} (hv : ∀ a ∈ v, a.Everywhere P)
    (t : DataType) : (v.getD (.null t)).Everywhere P := by
  cases v with
  | none => exact Everywhere.constant.2 (hnull t)
  | some a => exact hv a rfl

theorem ofExpr (hrow : ∀ a, P (.row [a])) {x : Expr} (hx : x.Everywhere P) :
    (Row.ofExpr x).toExpr.Everywhere P := by
  cases x with
  | row fields => exact hx
  | _ =>
    refine Everywhere.row.2 ⟨hrow _, fun a ha => ?_⟩
    exact List.mem_singleton.1 ha ▸ hx

theorem held (hnull : ∀ t, P (.null t)) (hrow : ∀ a, P (.row [a])) {e : Expr} {i : Nat}
    {v : Option Expr} {x : Expr} (hv : ∀ a ∈ v, a.Everywhere P) (hx : e.held i v = some x) :
    x.Everywhere P := by
  unfold Expr.held at hx
  split at hx
  · split at hx
    · exact hv x hx
    · cases hx
      exact getD_null hnull hv _
  · obtain ⟨a, ha, rfl⟩ := Option.map_eq_some_iff.1 hx
    exact ofExpr hrow (hv a ha)
  · exact hv x hx

end Everywhere

private theorem sound_null (t : DataType) : Sound (.null t) := ⟨trivial, trivial⟩

private theorem sound_row_singleton (a : Expr) : Sound (.row [a]) :=
    ⟨trivial, List.cons_ne_nil a []⟩

/-- In an obtainable expression every row has a field, and every overlay and every row comparison
    was made by its builder. -/
theorem Obtainable.everywhere_sound {e : Expr} (h : Obtainable e) : e.Everywhere Sound := by
  induction h with
  | column c => exact Everywhere.column.2 ⟨trivial, trivial⟩
  | bind v | literal v | null t => exact Everywhere.constant.2 ⟨trivial, trivial⟩
  | call f _ ih => exact Everywhere.call.2 ⟨⟨trivial, trivial⟩, ih⟩
  | arith op _ _ ihl ihr => exact Everywhere.arith.2 ⟨⟨trivial, trivial⟩, ihl, ihr⟩
  | compare op _ _ ihl ihr => exact Everywhere.compare.2 ⟨⟨trivial, trivial⟩, ihl, ihr⟩
  | logical op _ _ ihl ihr => exact Everywhere.logical.2 ⟨⟨trivial, trivial⟩, ihl, ihr⟩
  | not _ ih => exact Everywhere.not.2 ⟨⟨trivial, trivial⟩, ih⟩
  | @row fields r _ h ih =>
    cases fields with
    | nil => cases h
    | cons a fields =>
      cases h
      exact Everywhere.row.2 ⟨⟨trivial, List.cons_ne_nil a fields⟩, ih⟩
  | overlay _ _ _ _ h ihs ihr ihp ihn =>
    have hnode : Sound _ := ⟨made_of_ofOperands h, trivial⟩
    refine .of_slots (fun _ _ => SameButTypes.everywhere_sound) hnode
      (Overlay.forall₂_slots_of_ofOperands h) ?_
    simp only [List.mem_cons, Option.some.injEq, List.not_mem_nil, or_false]
    rintro o (rfl | rfl | rfl | ho)
    · exact .getD_null sound_null ihs _
    · exact .getD_null sound_null ihr _
    · exact .getD_null sound_null ihp _
    · exact ihn o ho.symm
  | rowCompare _ _ h ihl ihr =>
    have hnode : Sound _ := ⟨made_of_new h, trivial⟩
    refine .of_slots (fun _ _ => SameButTypes.everywhere_sound) hnode
      (RowCompare.forall₂_slots_of_new h) ?_
    simp only [List.mem_cons, Option.some.injEq, List.not_mem_nil, or_false]
    rintro o (rfl | rfl)
    · exact .ofExpr sound_row_singleton ihl
    · exact .ofExpr sound_row_singleton ihr
  | operand _ h ih => exact (Everywhere.iff_operands.1 ih).2 _ h
  | withOperand _ _ h ihe ihv =>
    have hnode := sound_of_withOperand h ihe.self
    refine .of_slots (fun _ _ => SameButTypes.everywhere_sound) hnode
      (withOperand_frame h).slots ?_
    intro o ho
    rcases List.mem_or_eq_of_mem_set ho with ho | ho
    · exact (Everywhere.iff_operands.1 ihe).2 o (mem_operands.2 ho)
    · exact .held sound_null sound_row_singleton ihv ho.symm

/-- The rows of a comparison have fields, and as many on both sides. -/
theorem Obtainable.rowCompare_fields {op : Comparator} {left right : List Expr}
    (h : Obtainable (.rowCompare op left right)) : left ≠ [] ∧ left.length = right.length := by
  obtain ⟨⟨hmade, -⟩, hleft, -⟩ := Everywhere.rowCompare.1 h.everywhere_sound
  obtain ⟨_, _, hnew⟩ := hmade
  exact ⟨hleft.self.hasField, RowCompare.degree_eq_of_new (RowCompare.new_again hnew)⟩

/-! ## Operands put back -/

/-- Each operand of the node, put back where it is, leaves the node as it is. -/
def TakesBack (e : Expr) : Prop := ∀ i < e.arity, e.withOperand i (e.operand? i) = .ok e

private theorem takesBack_call (f : Builtin) (args : List Expr) : TakesBack (.call f args) := by
  intro i hi
  have hargs : i < args.length := by simpa [arity, slots] using hi
  rw [operand?_call, List.getElem?_eq_getElem hargs]
  calc (Expr.call f args).withOperand i (some args[i])
      = .ok (.call f (args.set i args[i])) := if_neg (Nat.not_le.2 hi)
    _ = .ok (.call f args) := by rw [List.set_getElem_self]

private theorem takesBack_row (fields : List Expr) : TakesBack (.row fields) := by
  intro i hi
  have hfields : i < fields.length := by simpa [arity, slots] using hi
  rw [operand?_row, List.getElem?_eq_getElem hfields]
  calc (Expr.row fields).withOperand i (some fields[i])
      = .ok (.row (fields.set i fields[i])) := if_neg (Nat.not_le.2 hi)
    _ = .ok (.row fields) := by rw [List.set_getElem_self]

private theorem takesBack_of_ofOperands {source replacement start length : Option Expr}
    {o : Overlay}
    (h : Overlay.ofOperands source replacement start length = .ok o) : TakesBack o.toExpr := by
  intro i hi
  rw [Overlay.withOperand_toExpr o hi, Overlay.setOperand_self h (getElem?_slots hi)]
  rfl

private theorem takesBack_of_new {op : Comparator} {l r : Row} {c : RowCompare}
    (h : RowCompare.new op l r = .ok c) : TakesBack c.toExpr := by
  intro i hi
  obtain ⟨x, hx⟩ : ∃ x, c.toExpr.slots[i]? = some (some x) := by
    match i, hi with
    | 0, _ => exact ⟨c.left.toExpr, rfl⟩
    | 1, _ => exact ⟨c.right.toExpr, rfl⟩
  rw [operand?_eq_some_iff.2 hx, RowCompare.withOperand_toExpr c hi,
    RowCompare.setOperand_self h hx]
  rfl

/-- A node takes its operands back, provided that its builder made it if it is an overlay or a row
    comparison. -/
theorem Made.takesBack {e : Expr} (h : Made e) : TakesBack e := by
  cases e with
  | column | constant => exact fun i hi => absurd hi (Nat.not_lt_zero i)
  | call f args => exact takesBack_call f args
  | row fields => exact takesBack_row fields
  | not e =>
    intro i hi
    obtain rfl : i = 0 := Nat.lt_one_iff.1 hi
    rfl
  | arith op l r | compare op l r | logical op l r =>
    intro i hi
    match i, hi with
    | 0, _ => rfl
    | 1, _ => rfl
  | overlay s r p n =>
    obtain ⟨_, _, _, _, h⟩ := h
    have hback := takesBack_of_ofOperands h
    exact hback
  | rowCompare op l r =>
    obtain ⟨_, _, h⟩ := h
    have hback := takesBack_of_new h
    exact hback

/-- An operand of an obtainable expression, put back at its position, changes nothing at all, and
    neither does the length that an overlay does not have. Passes only lead from obtainable
    expressions to obtainable ones. -/
theorem withOperand_operand_self :
    (∀ e, Obtainable e → ∀ i < e.arity, e.withOperand i (e.operand? i) = .ok e) ∧
    (∀ (σ : Type) (f : Expr → StateM σ (Option Expr)),
      (∀ node s, Obtainable node → ∀ x ∈ (f node s).1, Obtainable x) →
      ∀ e e' s s', Obtainable e → e.replaceWith f s = .ok e' s' → Obtainable e') := by
  constructor
  · intro e he
    exact he.everywhere_sound.self.made.takesBack
  · intro σ f hf e e' s s' he h
    exact he.replaceWith hf h

/-- A comparison of a NaN and of a `NULL` that got a type there takes its left row back, and an
    overlay that a pass put in the place of a column goes on without a length. -/
theorem withOperand_operand_self_nan :
    let n : Expr := .column ⟨none, "n", .integer⟩
    let x : Expr := .column ⟨none, "x", .double⟩
    let nan : Expr := .bind (.float ⟨0x7FF8000000000000⟩)
    let c : RowCompare := ⟨.eq, ⟨[.null .integer, nan]⟩, ⟨[n, x]⟩⟩
    let o : Overlay := ⟨.bind (.text "abc"), .null (.varchar none), n, none⟩
    RowCompare.new .eq ⟨[.null .unknown, nan]⟩ ⟨[n, x]⟩ = .ok c ∧
      c.toExpr.withOperand 0 (some c.left.toExpr) = .ok c.toExpr ∧
      n.replaceWith (fun _ => pure (some o.toExpr)) () = .ok o.toExpr () ∧
      o.toExpr.withOperand 3 none = .ok o.toExpr := by
  intro n x nan c o
  have hn : Obtainable n := .column _
  have hrow {a b : Expr} (ha : Obtainable a) (hb : Obtainable b) : Obtainable (.row [a, b]) := by
    refine @Obtainable.row [a, b] ⟨[a, b]⟩ ?_ rfl
    intro e he
    rcases List.mem_pair.1 he with rfl | rfl
    · exact ha
    · exact hb
  have hnan : Obtainable nan := .bind _
  have hx : Obtainable x := .column _
  have hc : Obtainable c.toExpr := .rowCompare (hrow (.null .unknown) hnan) (hrow hn hx) rfl
  have ho : Obtainable o.toExpr := by
    refine @Obtainable.overlay (some (.bind (.text "abc"))) none (some n) none o ?_ ?_ ?_ ?_ rfl
    · exact fun e he => Option.some.inj he ▸ .bind _
    · exact fun e he => nomatch he
    · exact fun e he => Option.some.inj he ▸ hn
    · exact fun e he => nomatch he
  have hpass : n.replaceWith (fun _ => pure (some o.toExpr)) () = .ok o.toExpr () := by
    rw [replaceWith_leaf rfl]
    rfl
  have hmade : Obtainable o.toExpr := by
    refine withOperand_operand_self.2 Unit (fun _ => pure (some o.toExpr)) ?_ n o.toExpr () () hn
      hpass
    exact fun node s _ e he => Option.some.inj he ▸ ho
  exact ⟨rfl, withOperand_operand_self.1 c.toExpr hc 0 (by decide), hpass,
    withOperand_operand_self.1 o.toExpr hmade 3 (by decide)⟩

end SqlExpr.Expr
