-- SUMMARY: The parameters of a rendering are the values of the lowered tree, in preorder.
import SqlExpr.Proofs.Expr.Preorder
import SqlExpr.Proofs.Lowering.Basic
import SqlExpr.Proofs.Render.Pieces
import SqlExpr.Proofs.Render.Writes

/-!
# Parameters

Each value that is not written out binds one parameter. The constants among the writes of an
expression are those of the lowered tree in preorder (`Expr.constants_writes`), and so are the
parameters of its rendering (`Expr.params_render`).
-/

namespace SqlExpr

/-- The value that the constant binds, unless it is marked to be written out. -/
def Constant.bound? (c : Constant) : Option Value := if c.inline then none else some c.value

/-- Unless all values are written out, the writes bind what their constants bind. -/
private theorem Settings.filterMap_binds {s : Settings} (h : s.paramStyle ≠ .inline)
    (ws : List Write) :
    ws.filterMap s.binds = (ws.filterMap Write.constant?).filterMap Constant.bound? := by
  rw [List.filterMap_filterMap]
  congr 1
  funext w
  cases w with
  | value c => simp [binds, writesOut, Write.constant?, Constant.bound?, h]
  | _ => rfl

/-- Taking up writes binds what they bind, behind what was bound before. -/
private theorem Renderer.params_takeUp (r : Renderer) (ws : List Write) :
    (r.takeUp ws).params.toList = r.params.toList ++ ws.filterMap r.settings.binds := by
  induction ws generalizing r with
  | nil => simp
  | cons w ws ih =>
    rw [takeUp_cons, ih (r.write w)]
    cases hw : r.settings.binds w <;> simp [Renderer.write, hw]

namespace Expr

variable {d : Dialect} {s : Settings}

/-! ## Constants of a tree -/

/-- The constants of the tree, in preorder. -/
def constants (e : Expr) : List Constant := e.preorder.filterMap constant?

theorem constants_eq (e : Expr) :
    e.constants = e.constant?.toList ++ e.operands.flatMap constants := by
  rw [constants, preorder_eq, List.filterMap_cons, List.filterMap_flatMap]
  cases e.constant? <;> rfl

/-- The constants of a node that is written as it is come from the links below it. -/
theorem constants_lower {e : Expr} (h : e.rewrite d = none) :
    (e.lower d).constants =
      e.constant?.toList ++ e.links.flatMap fun x => (x.lower d).constants := by
  have hoperands : (e.lower d).constants =
      e.constant?.toList ++ e.operands.flatMap fun x => (x.lower d).constants := by
    rw [lower_of_native h, constants_eq, operands_lowerOperands, List.flatMap_map]
    cases e <;> rfl
  cases e with
  | logical op l r =>
    -- A chain is one node with all its links below it.
    have hconnective (a b : Expr) : ((Expr.logical op a b).lower d).constants =
        (a.lower d).constants ++ (b.lower d).constants := by
      simp [constants_eq (.logical _ _ _), constant?, operands, slots]
    rw [links, flatMap_chain hconnective]
    rfl
  | _ => exact hoperands

/-! ## Constants of the writes -/

/-- The constants among the writes of an expression are those of the lowered tree. -/
theorem constants_writes (d : Dialect) (e : Expr) :
    (e.writes d).filterMap Write.constant? = (e.lower d).constants := by
  induction h : e.height using Nat.strongRecOn generalizing e with
  | _ n ih =>
  subst h
  rw [writes_eq, List.filterMap_flatMap, pieces]
  cases hrewrite : e.rewrite d with
  | some e' =>
    rw [lower_of_rewrite hrewrite, ← ih _ (height_rewrite_lt hrewrite) e' rfl]
    exact List.flatMap_singleton _ _
  | none =>
    have hlinks : (e.links.flatMap fun x => (x.writes d).filterMap Write.constant?) =
        e.links.flatMap fun x => (x.lower d).constants :=
      List.flatMap_congr fun x hx => ih _ (height_lt_of_mem_links hx) x rfl
    rw [constants_lower hrewrite, ← hlinks]
    refine (flatMap_nativePieces ?_ d e).trans ?_
    · intro w hw
      simp [Piece.writes, hw]
    · cases e.constant? <;> rfl

/-! ## Dialects that lack nothing -/

/-- The tree is rendered as it is on a dialect that has every construct. -/
private theorem lower_of_support_native (h : ∀ c, d.support c = .native) (e : Expr) :
    e.lower d = e := by
  have hrewrite (e : Expr) : e.rewrite d = none := by
    cases e with
    | overlay | rowCompare => simp [rewrite, h]
    | _ => rfl
  have hmap {es : List Expr} (hes : ∀ a ∈ es, a.lower d = a) : es.map (lower d) = es :=
    (List.map_congr_left hes).trans (List.map_id es)
  induction e with
  | column | constant => simp
  | call f args ih => simp [hmap ih]
  | row fields ih => simp [hmap ih]
  | rowCompare op l r ihl ihr => simp [lower_rowCompare (hrewrite _), hmap ihl, hmap ihr]
  | overlay source replacement start length ihs ihr ihp ihn =>
    rw [lower_overlay (hrewrite _), ihs, ihr, ihp]
    cases length with
    | none => rfl
    | some n => rw [Option.map_some, ihn n rfl]
  | _ => simp_all

/-! ## Parameters -/

/-- The values that the constants of the tree bind, in preorder. -/
def boundValues (e : Expr) : List Value := e.constants.filterMap Constant.bound?

/-- A node binds its own value, and then its operands bind theirs. -/
theorem boundValues_eq (e : Expr) :
    e.boundValues =
      (e.constant?.bind Constant.bound?).toList ++ e.operands.flatMap boundValues := by
  rw [boundValues, constants_eq, List.filterMap_append, List.filterMap_flatMap]
  cases e.constant? with
  | none => rfl
  | some c => cases hc : c.bound? <;> simp [hc] <;> rfl

/-- A traversal that collects what each node binds. -/
private theorem fold_bound (e : Expr) (init : List Value) :
    e.fold (fun vs x => vs ++ (x.constant?.bind Constant.bound?).toList) init =
      init ++ e.boundValues := by
  rw [fold_preorder, boundValues, constants, List.filterMap_filterMap]
  induction e.preorder generalizing init with
  | nil => simp
  | cons x xs ih =>
    rw [List.foldl_cons, ih, List.append_assoc]
    cases hx : x.constant?.bind Constant.bound? <;> simp [hx]

/-- Unless values are written out, the parameters are the bound values of the lowered tree. -/
theorem params_rendered (e : Expr) (d : Dialect) (hstyle : s.paramStyle ≠ .inline) :
    (e.rendered d s).params.toList = (e.lower d).boundValues := by
  rw [boundValues, ← constants_writes, ← Settings.filterMap_binds hstyle]
  exact Renderer.params_takeUp _ _

/-- Without a depth limit every expression is rendered. Unless values are written out, its
    parameters are the bound values of the lowered tree, in preorder. On the dialects that have
    every construct these are the bound values that a traversal of the tree meets. -/
theorem params_render (e : Expr) (d : Dialect) (hstyle : s.paramStyle ≠ .inline)
    (hdepth : s.maxDepth = none) :
    ∃ out, e.render d s = .ok out ∧ out.params.toList = (e.lower d).boundValues ∧
      (d = .generic ∨ d = .postgres → out.params.toList =
        e.fold (fun vs x => vs ++ (x.constant?.bind Constant.bound?).toList) []) := by
  refine ⟨e.rendered d s, render_of_unlimited hdepth, params_rendered e d hstyle, ?_⟩
  intro hd
  rw [params_rendered e d hstyle, lower_of_support_native (Dialect.support_native_iff.2 hd), fold_bound,
    List.nil_append]

/-- `INSERT` takes the start and the length before the replacement, and the default length reads
    the replacement once more. -/
theorem params_render_insert :
    let e := Expr.overlay (.bind (.text "abc")) (.bind (.text "x")) (.bind (.int 2)) none
    ∃ out, e.render .mysql = .ok out ∧
      out.params.toList = [.text "abc", .int 2, .text "x", .text "x"] := by
  intro e
  obtain ⟨out, hout, hparams, -⟩ :=
    @params_render {} e .mysql (by decide) rfl
  refine ⟨out, hout, hparams.trans ?_⟩
  have hrewrite : e.rewrite .mysql =
      some (Overlay.mk (.bind (.text "abc")) (.bind (.text "x")) (.bind (.int 2)) none).alternate :=
    rfl
  rw [lower_of_rewrite hrewrite]
  simp only [Overlay.alternate, Overlay.effectiveLength, Option.getD_none, bind, lower_call,
    List.map_cons, List.map_nil, lower_constant]
  rfl

end Expr

end SqlExpr
