-- SUMMARY: The rewriting that a pass is meant to be, and the rewritings of zeros that it loses.
import SqlExpr.Proofs.Expr.Replace
import SqlExpr.Proofs.Expr.Same

/-!
# Bottom-up rewriting

`Expr.bottomUp f` holds in every node what has become of its operands, and puts what `f` gives in
the place of the node. A pass keeps an operand if what has become of it compares equal
(`Expr.exchanged`), so it makes the same of a tree only where this can be seen. What it does not see
is the sign of a zero: it loses no rewriting at all exactly if there is no floating point zero below
the root (`Expr.replace_eq_bottomUp_iff`).
-/

namespace SqlExpr

namespace Expr

/-! ## Nodes with other operands -/

/-- The node with other operands. Overlays and row comparisons, which have a say in what they hold,
    stay as they are. -/
def withOperands : Expr → List Expr → Expr
  | .call f _, es => .call f es
  | .row _, es => .row es
  | .arith op _ _, [l, r] => .arith op l r
  | .compare op _ _, [l, r] => .compare op l r
  | .logical op _ _, [l, r] => .logical op l r
  | .not _, [e] => .not e
  | e, _ => e

/-- The node takes any operands: it is no overlay and no row comparison. -/
def Unchecked : Expr → Prop
  | .overlay _ _ _ _ | .rowCompare _ _ _ => False
  | _ => True

theorem withOperands_operands (e : Expr) : e.withOperands e.operands = e := by
  cases e <;> simp [withOperands, operands, slots]

theorem sameNode_withOperands (e : Expr) (es : List Expr) : SameNode e (e.withOperands es) := by
  unfold withOperands
  split <;> first | exact .refl _ | constructor

namespace Unchecked

variable {e : Expr} {es : List Expr}

/-- No operand is absent. -/
theorem slots_eq (h : Unchecked e) : e.slots = e.operands.map some := by
  cases e with
  | overlay | rowCompare => cases h
  | _ => simp [operands, slots]

theorem operands_withOperands (h : Unchecked e) (hlength : es.length = e.operands.length) :
    (e.withOperands es).operands = es := by
  cases e with
  | overlay | rowCompare => cases h
  | column | constant => exact (List.eq_nil_of_length_eq_zero hlength).symm
  | call f args | row fields => simp [withOperands, operands, slots]
  | not a =>
    obtain ⟨x, rfl⟩ := List.length_eq_one_iff.1 hlength
    rfl
  | arith op l r | compare op l r | logical op l r =>
    obtain ⟨x, y, rfl⟩ := List.length_eq_two.1 hlength
    rfl

theorem withOperand_withOperands (h : Unchecked e) (hlength : es.length = e.operands.length)
    {i : Nat} (hi : i < es.length) (x : Expr) :
    (e.withOperands es).withOperand i (some x) = .ok (e.withOperands (es.set i x)) := by
  cases e with
  | overlay | rowCompare => cases h
  | column | constant =>
    rw [hlength] at hi
    cases hi
  | call f args | row fields =>
    refine if_neg (Nat.not_le.2 ?_)
    simpa [withOperands, arity, slots] using hi
  | not a =>
    obtain ⟨y, rfl⟩ := List.length_eq_one_iff.1 hlength
    obtain rfl : i = 0 := Nat.lt_one_iff.1 hi
    rfl
  | arith op l r | compare op l r | logical op l r =>
    obtain ⟨y, z, rfl⟩ := List.length_eq_two.1 hlength
    replace hi : i < 2 := hi
    obtain rfl | rfl : i = 0 ∨ i = 1 := by omega
    · rfl
    · rfl

/-- The operands of the node are at the positions from 0 on. -/
theorem positions_eq (h : Unchecked e) :
    e.positions = e.operands.zipIdx.map fun (o, i) => (i, o) := by
  rw [positions, h.slots_eq, List.zipIdx_map, List.filterMap_map, ← List.filterMap_eq_map]
  rfl

end Unchecked

/-! ## Rewriting from the leaves upward -/

/-- Rewrite the operands of a node, hold for each of them what `hold` makes of the old and the new
    one, and put what the function gives in the place of the node. -/
def bottomUpWith (hold : Expr → Expr → Expr) (f : Expr → Option Expr) (e : Expr) : Expr :=
  let node := e.withOperands (e.operands.attach.map fun o => hold o.1 (bottomUpWith hold f o.1))
  (f node).getD node
termination_by e.size
decreasing_by exact size_lt_of_mem_operands o.2

/-- How the rewriting goes through a node. -/
theorem bottomUpWith_eq (hold : Expr → Expr → Expr) (f : Expr → Option Expr) (e : Expr) :
    e.bottomUpWith hold f =
      let node := e.withOperands (e.operands.map fun o => hold o (o.bottomUpWith hold f))
      (f node).getD node := by
  rw [bottomUpWith]
  conv => rhs; rw [← List.attach_map_subtype_val e.operands, List.map_map]
  rfl

/-- Rewrite every node from the leaves upward: what becomes of the operands is what the node holds
    when the function gets it. -/
def bottomUp (f : Expr → Option Expr) (e : Expr) : Expr := e.bottomUpWith (fun _ new => new) f

theorem bottomUp_eq (f : Expr → Option Expr) (e : Expr) :
    e.bottomUp f = (f (e.withOperands (e.operands.map (bottomUp f)))).getD
      (e.withOperands (e.operands.map (bottomUp f))) :=
  bottomUpWith_eq _ f e

theorem bottomUp_leaf {f : Expr → Option Expr} {e : Expr} (h : e.operands = []) :
    e.bottomUp f = (f e).getD e := by
  rw [bottomUp_eq, h, List.map_nil, ← h, withOperands_operands]

/-- What a pass leaves in the place of an operand. -/
def exchanged (old new : Expr) : Expr := if new.same old then old else new

/-! ## Passes through nodes that take any operands -/

variable {e : Expr}

private theorem splice_withOperands (h : Unchecked e) {done rest : List Expr} {o : Expr}
    (hlength : (done ++ o :: rest).length = e.operands.length) (new : Expr) :
    (e.withOperands (done ++ o :: rest)).splice o done.length new =
      .ok (e.withOperands (done ++ exchanged o new :: rest)) := by
  unfold splice exchanged
  split
  case isTrue => rfl
  case isFalse =>
    rw [h.withOperand_withOperands hlength (by simp)]
    simp

/-- Behind the operands that are `done`, those of the `rest` are exchanged one after the other. -/
private theorem spliceAll_withOperands (h : Unchecked e) {done rest news : List Expr}
    (hlength : (done ++ rest).length = e.operands.length) (hnews : news.length = rest.length) :
    (e.withOperands (done ++ rest)).spliceAll
        (((rest.zipIdx done.length).map fun (o, i) => (i, o)).zip news) =
      .ok (e.withOperands (done ++ List.zipWith exchanged rest news)) := by
  induction rest generalizing done news with
  | nil => rfl
  | cons o rest ih =>
    cases news with
    | nil => cases hnews
    | cons new news =>
      have hnext := @ih (done ++ [exchanged o new]) news (by simpa using hlength)
        (Nat.succ.inj hnews)
      rw [List.append_assoc, List.append_assoc, List.length_append] at hnext
      refine spliceAll_cons.trans (Except.bind_eq_ok_iff.2 ⟨_, ?_, hnext⟩)
      exact splice_withOperands h hlength new

private theorem spliceAll_of_unchecked (h : Unchecked e) {news : List Expr}
    (hnews : news.length = e.operands.length) :
    e.spliceAll (e.positions.zip news) =
      .ok (e.withOperands (List.zipWith exchanged e.operands news)) := by
  have hall := @spliceAll_withOperands e h [] e.operands news rfl hnews
  rwa [List.nil_append, withOperands_operands, List.nil_append, List.length_nil,
    ← h.positions_eq] at hall

/-- The pass through a tree without overlays and row comparisons never fails. It keeps the operands
    that compare equal to what has become of them. -/
private theorem replace_of_unchecked (he : e.Everywhere Unchecked) (f : Expr → Option Expr) :
    e.replace f = .ok (e.bottomUpWith exchanged f) := by
  rw [replace_eq_ok_iff]
  induction e using operand_induction with
  | node e ih =>
    obtain ⟨hnode, hoperands⟩ := Everywhere.iff_operands.1 he
    have hnews : e.rewriteOperands (fun node => (pure (f node) : StateM Unit _)) () =
        .ok (e.operands.map (bottomUpWith exchanged f)) () :=
      mapM_eq_ok fun o ho => ih o ho (hoperands o ho)
    refine replaceWith_eq_ok_iff.2
      ⟨_, _, (), hnews, spliceAll_of_unchecked hnode (List.length_map _), ?_⟩
    rw [List.zipWith_map_right, List.zipWith_self, bottomUpWith_eq]
    rfl

/-! ## Rewritings that can be seen -/

/-- What becomes of an operand can be told from it, anywhere in the tree. -/
def VisiblyRewritten (f : Expr → Option Expr) (e : Expr) : Prop :=
  e.Everywhere fun x => ∀ o ∈ x.operands, (o.bottomUp f).Visible o

private theorem exchanged_of_visible {old new : Expr} (h : new.Visible old) :
    exchanged old new = new := by
  unfold exchanged
  split
  case isTrue hsame => exact (h hsame).symm
  case isFalse => rfl

theorem VisiblyRewritten.bottomUpWith_exchanged {f : Expr → Option Expr}
    (h : VisiblyRewritten f e) : e.bottomUpWith exchanged f = e.bottomUp f := by
  induction e using operand_induction with
  | node e ih =>
    obtain ⟨hnode, hoperands⟩ := Everywhere.iff_operands.1 h
    have hmap : e.operands.map (fun o => exchanged o (o.bottomUpWith exchanged f)) =
        e.operands.map (bottomUp f) :=
      List.map_congr_left fun o ho => by
        rw [ih o ho (hoperands o ho), exchanged_of_visible (hnode o ho)]
    rw [bottomUpWith_eq, hmap, bottomUp_eq]

/-- Without zeros below the root every rewriting can be seen. -/
private theorem visiblyRewritten_of_noZero (h : ∀ o ∈ e.operands, o.Everywhere NoZero)
    (f : Expr → Option Expr) : VisiblyRewritten f e := by
  induction e using operand_induction with
  | node e ih =>
    refine Everywhere.iff_operands.2 ⟨fun o ho hsame => eq_of_same hsame (h o ho), ?_⟩
    exact fun o ho => ih o ho (Everywhere.iff_operands.1 (h o ho)).2

end Expr

/-! ## The other zero -/

namespace Double

/-- For a zero, the one of the other sign. -/
def otherZero (x : Double) : Double := if x.bits = 0 then ⟨0x8000000000000000⟩ else ⟨0⟩

private theorem otherZero_ne (x : Double) : x.otherZero ≠ x := by
  unfold otherZero
  split
  case isTrue h =>
    rintro rfl
    cases h
  case isFalse h =>
    rintro rfl
    exact h rfl

private theorem isZero_otherZero (x : Double) : x.otherZero.isZero = true := by
  unfold otherZero
  split
  · rfl
  · rfl

private theorem isNaN_of_isZero {x : Double} (h : x.isZero = true) : x.isNaN = false := by
  simp only [isZero, Bool.and_eq_true, beq_iff_eq] at h
  simp [isNaN, h.1]

private theorem sameNumber_otherZero {x : Double} (h : x.isZero = true) :
    x.otherZero.sameNumber x = true := by
  have hother := isZero_otherZero x
  simp [sameNumber, isNaN_of_isZero h, isNaN_of_isZero hother, h, hother]

end Double

namespace Expr

variable {e : Expr}

/-- The function of a pass that changes the sign of every floating point zero. Below the root the
    pass loses all that it does. -/
def flipZero : Expr → Option Expr
  | .constant ⟨.float x, t, inline⟩ =>
    if x.isZero then some (.constant ⟨.float x.otherZero, t, inline⟩) else none
  | _ => none

theorem flipZero_ne_self (e : Expr) : flipZero e ≠ some e := by
  unfold flipZero
  split
  · split <;> simp [Double.otherZero_ne]
  · exact nofun

private theorem noZero_of_flipZero (h : flipZero e = none) : e.NoZero := by
  unfold NoZero
  split
  · simpa [flipZero] using h
  · trivial

private theorem operands_of_flipZero {x : Expr} (h : flipZero e = some x) : e.operands = [] := by
  unfold flipZero at h
  split at h
  · rfl
  · cases h

theorem SameNode.flipZero_eq {node : Expr} (h : SameNode e node) : flipZero node = flipZero e := by
  cases h <;> rfl

/-- A pass does not see that an operand has become the other zero. -/
private theorem exchanged_flipZero (e : Expr) : exchanged e ((flipZero e).getD e) = e := by
  unfold flipZero
  split
  · split
    case isTrue h =>
      exact if_pos (by simp [same, Constant.same, Value.same, Double.sameNumber_otherZero h])
    case isFalse => exact ite_self _
  · exact ite_self _

/-- A pass that changes the signs of zeros leaves all but the root as it is. -/
private theorem bottomUpWith_exchanged_flipZero (e : Expr) :
    e.bottomUpWith exchanged flipZero = (flipZero e).getD e := by
  induction e using operand_induction with
  | node e ih =>
    have hmap : e.operands.map (fun o => exchanged o (o.bottomUpWith exchanged flipZero)) =
        e.operands := by
      conv => rhs; rw [← List.map_id e.operands]
      exact List.map_congr_left fun o ho => by rw [ih o ho, exchanged_flipZero, id]
    rw [bottomUpWith_eq, hmap, withOperands_operands]

/-- If changing the signs of all zeros changes nothing below the root, no operand is changed. -/
theorem bottomUp_operands_of_flipZero (he : Unchecked e)
    (h : e.bottomUp flipZero = (flipZero e).getD e) {o : Expr} (ho : o ∈ e.operands) :
    o.bottomUp flipZero = o := by
  rw [bottomUp_eq, (sameNode_withOperands e _).flipZero_eq] at h
  cases hflip : flipZero e with
  | some x =>
    rw [operands_of_flipZero hflip] at ho
    cases ho
  | none =>
    rw [hflip] at h
    have hoperands := congrArg operands h
    rw [Option.getD_none, Option.getD_none, he.operands_withOperands (List.length_map _)]
      at hoperands
    exact List.map_inj_left.1 (hoperands.trans (List.map_id _).symm) o ho

private theorem everywhere_noZero_of_bottomUp (he : e.Everywhere Unchecked)
    (h : e.bottomUp flipZero = e) : e.Everywhere NoZero := by
  induction e using operand_induction with
  | node e ih =>
    obtain ⟨hnode, hoperands⟩ := Everywhere.iff_operands.1 he
    have hflip : flipZero e = none := by
      cases hflip : flipZero e with
      | none => rfl
      | some x =>
        rw [bottomUp_eq, (sameNode_withOperands e _).flipZero_eq, hflip] at h
        exact absurd (hflip.trans (congrArg some h)) (flipZero_ne_self e)
    refine Everywhere.iff_operands.2 ⟨noZero_of_flipZero hflip, fun o ho => ?_⟩
    refine ih o ho (hoperands o ho) (bottomUp_operands_of_flipZero hnode ?_ ho)
    rw [h, hflip, Option.getD_none]

/-! ## Whole passes -/

/-- A pass through a tree without overlays and row comparisons never fails, but it keeps an operand
    that compares equal to what has become of it. It rewrites the tree from the leaves upward,
    losing nothing, if what has become of an operand can always be told from it. It does so for
    every function exactly if there is no floating point zero below the root. -/
theorem replace_eq_bottomUp_iff (he : e.Everywhere Unchecked) :
    (∀ f, e.replace f = .ok (e.bottomUpWith exchanged f)) ∧
    (∀ f, VisiblyRewritten f e → e.replace f = .ok (e.bottomUp f)) ∧
    ((∀ f, e.replace f = .ok (e.bottomUp f)) ↔ ∀ o ∈ e.operands, o.Everywhere NoZero) := by
  have hreplace := replace_of_unchecked he
  have hvisible {f : Expr → Option Expr} (h : VisiblyRewritten f e) :
      e.replace f = .ok (e.bottomUp f) :=
    (hreplace f).trans (congrArg _ h.bottomUpWith_exchanged)
  refine ⟨hreplace, fun f => hvisible, fun h o ho => ?_, fun h f => hvisible ?_⟩
  · have hflip : e.bottomUp flipZero = (flipZero e).getD e := by
      rw [← bottomUpWith_exchanged_flipZero]
      exact Except.ok.inj ((h flipZero).symm.trans (hreplace flipZero))
    refine everywhere_noZero_of_bottomUp ((Everywhere.iff_operands.1 he).2 o ho) ?_
    exact bottomUp_operands_of_flipZero he.self hflip ho
  · exact visiblyRewritten_of_noZero h f

/-- A column may become a zero, whatever other zero stands beside it. A tree with a zero in it may
    lose a rewriting, a tree without one may not. -/
theorem replace_eq_bottomUp_sum :
    let column : Expr := .column ⟨none, "x", .double⟩
    let zero : Expr := .bind (.float ⟨0⟩)
    let negativeZero : Expr := .bind (.float ⟨0x8000000000000000⟩)
    let e : Expr := .add column zero
    let f : Expr → Option Expr := fun node =>
      if node.kind = .column then some negativeZero else none
    e.replace f = .ok (.add negativeZero zero) ∧
      (∃ g, e.replace g ≠ .ok (e.bottomUp g)) ∧
      ∀ g, (Expr.not column).replace g = .ok ((Expr.not column).bottomUp g) := by
  intro column zero negativeZero e f
  have he : e.Everywhere Unchecked :=
    Everywhere.arith.2 ⟨trivial, Everywhere.column.2 trivial, Everywhere.constant.2 trivial⟩
  have hnot : (Expr.not column).Everywhere Unchecked :=
    Everywhere.not.2 ⟨trivial, Everywhere.column.2 trivial⟩
  have hcolumn : column.bottomUp f = negativeZero := bottomUp_leaf rfl
  have hzero : zero.bottomUp f = zero := bottomUp_leaf rfl
  have hleaf {o : Expr} (ho : o.operands = []) : ∀ x ∈ o.operands, (x.bottomUp f).Visible x := by
    rw [ho]
    exact nofun
  have hvisible : VisiblyRewritten f e := by
    refine Everywhere.arith.2
      ⟨?_, Everywhere.column.2 (hleaf rfl), Everywhere.constant.2 (hleaf rfl)⟩
    intro o ho
    rcases List.mem_pair.1 ho with rfl | rfl
    · rw [hcolumn]
      exact fun h => nomatch h
    · rw [hzero]
      exact fun _ => rfl
  have hbottomUp : e.bottomUp f = .add negativeZero zero := by
    rw [bottomUp_eq, show e.operands.map (bottomUp f) = [negativeZero, zero] from
      congrArg₂ (fun a b => [a, b]) hcolumn hzero]
    rfl
  obtain ⟨-, hreplace, hiff⟩ := replace_eq_bottomUp_iff he
  refine ⟨(hreplace f hvisible).trans (congrArg _ hbottomUp), ?_, ?_⟩
  · by_contra hnone
    have hall := hiff.1 fun g => not_not.1 fun hg => hnone ⟨g, hg⟩
    have hzero : Double.isZero ⟨0⟩ = false := (hall zero (.tail _ (.head _))).self
    cases hzero
  · refine (replace_eq_bottomUp_iff hnot).2.2.2 fun o ho => ?_
    rw [List.mem_singleton.1 ho]
    exact Everywhere.column.2 trivial

/-- The pass keeps the zero below the root in the place of the negative zero that the function gives
    for it, which the node would hold, and which the pass gives back from the root. -/
theorem replace_negative_zero :
    let zero : Expr := .bind (.float ⟨0⟩)
    let negativeZero : Expr := .bind (.float ⟨0x8000000000000000⟩)
    let f : Expr → Option Expr := fun node =>
      if node.kind = .value then some negativeZero else none
    (Expr.not zero).Everywhere Unchecked ∧
      (Expr.not zero).bottomUp f = .not negativeZero ∧
      (Expr.not zero).replace f = .ok (.not zero) ∧ zero.replace f = .ok negativeZero ∧
      (Expr.not zero).withOperand 0 (some negativeZero) = .ok (.not negativeZero) ∧
      (Expr.not zero) ≠ .not negativeZero := by
  intro zero negativeZero f
  have hzero : zero.bottomUp f = negativeZero := bottomUp_leaf rfl
  have hreplace : zero.replace f = .ok negativeZero := by
    rw [replace, replaceWith_leaf rfl]
    rfl
  refine ⟨Everywhere.not.2 ⟨trivial, Everywhere.constant.2 trivial⟩, ?_, ?_, hreplace, rfl, ?_⟩
  · rw [bottomUp_eq, show (Expr.not zero).operands.map (bottomUp f) = [negativeZero] from
      congrArg (fun a => [a]) hzero]
    rfl
  · rw [replace, replaceWith_eq, show (Expr.not zero).positions = [(0, zero)] from rfl]
    simp only [List.foldlM_cons, replaceWith_leaf (show zero.slots = [] from rfl)]
    rfl
  · simp [zero, negativeZero, Expr.bind, Constant.bind]

end Expr

end SqlExpr
