-- SUMMARY: The writes of an expression are those of its lowered tree, which is written as it is.
import SqlExpr.Proofs.Expr.Chain
import SqlExpr.Proofs.Expr.Congruence
import SqlExpr.Proofs.Lowering.Basic
import SqlExpr.Proofs.Overlay.Additions
import SqlExpr.Proofs.Render.Congruence
import SqlExpr.Proofs.Row.Fieldwise

/-!
# The writes of lowered expressions

A dialect lacks nothing of the lowered tree (`Expr.everywhere_lower`), so each of its nodes is
written as it is. What is written for an expression is written for the lowered tree, parentheses
aside (`Expr.bareWrites_lower`): a link, or the condition of a `NOT`, whose rewrite is a chain is set
in parentheses that the lowered tree does without. As long as there is none, and always on dialects
that compare rows themselves, parentheses are the same too (`Expr.writes_lower`,
`Expr.writes_lower_of_rows`).
-/

namespace SqlExpr

variable {d : Dialect}

/-- A list between two lists of parts comes once more than within both. -/
private theorem intercalate_append {α : Type} (gap : List α) {front back : List (List α)}
    (hfront : front ≠ []) (hback : back ≠ []) :
    gap.intercalate (front ++ back) = gap.intercalate front ++ gap ++ gap.intercalate back := by
  obtain ⟨y, back, rfl⟩ := List.exists_cons_of_ne_nil hback
  induction front with
  | nil => exact absurd rfl hfront
  | cons x front ih =>
    cases front with
    | nil => simp
    | cons x' front =>
      have hrest := ih (List.cons_ne_nil x' front)
      simp only [List.cons_append, List.intercalate_cons_cons] at hrest ⊢
      rw [hrest]
      simp

namespace Expr

/-! ## Nothing is left to rewrite -/

/-- Whether a node is rewritten does not depend on what its operands are lowered to. -/
theorem rewrite_lowerOperands {e : Expr} (h : e.rewrite d = none) :
    (e.lowerOperands d).rewrite d = none := by
  cases e with
  | overlay source replacement start length =>
    rw [rewrite] at h
    rw [lowerOperands, rewrite]
    cases hsupport : d.support .overlay with
    | native => rfl
    | alternate | emulated => rw [hsupport] at h; cases h
  | rowCompare op left right =>
    have hany : Congruence fun _ _ => True := by constructor <;> simp
    have hfields (fields : List Expr) :
        List.Forall₂ (fun _ _ => True) fields (fields.map (lower d)) :=
      List.forall₂_map_right_iff.2 (List.forall₂_same.2 fun _ _ => trivial)
    have hrel := RowCompare.rel_rewrite hany (hfields left) (hfields right) op
      (d.support op.construct)
    rw [rewrite] at h
    rw [h] at hrel
    rw [lowerOperands, rewrite]
    generalize RowCompare.rewrite ⟨op, ⟨left.map (lower d)⟩, _⟩ _ = rewritten at hrel ⊢
    cases hrel
    rfl
  | _ => rfl

theorem sameNode_lowerOperands (d : Dialect) (e : Expr) : SameNode e (e.lowerOperands d) := by
  cases e <;> constructor

/-- The dialect has every construct that is left in the lowered tree. -/
theorem everywhere_lower (d : Dialect) (e : Expr) :
    (e.lower d).Everywhere fun x => x.rewrite d = none := by
  induction h : e.height using Nat.strongRecOn generalizing e with
  | _ n ih =>
  subst h
  cases hrewrite : e.rewrite d with
  | some e' =>
    rw [lower_of_rewrite hrewrite]
    exact ih _ (height_rewrite_lt hrewrite) e' rfl
  | none =>
    rw [lower_of_native hrewrite, Everywhere.iff_operands, operands_lowerOperands,
      List.forall_mem_map]
    exact ⟨rewrite_lowerOperands hrewrite,
      fun o ho => ih _ (height_lt_of_mem_operands ho) o rfl⟩

/-! ## Chains -/

/-- No link of a chain becomes a chain of the same connective when it is lowered, and no condition
    of a `NOT` becomes a chain. -/
def KeepsChains (d : Dialect) : Expr → Prop
  | .logical op l r => ∀ x ∈ (Expr.logical op l r).chain op, ∀ a b, x.lower d ≠ .logical op a b
  | .not e => (e.lower d).isLogical = e.isLogical
  | _ => True

private theorem chain_lower {op : Connective} {e : Expr}
    (h : ∀ x ∈ e.chain op, ∀ a b, x.lower d ≠ .logical op a b) :
    (e.lower d).chain op = (e.chain op).map (lower d) := by
  induction e using chain_induction op with
  | link e hne =>
    rw [chain_of_ne hne] at h ⊢
    exact chain_of_ne (h e List.mem_cons_self)
  | node l r ihl ihr =>
    rw [chain_logical, List.forall_mem_append] at h
    rw [lower_logical, chain_logical, chain_logical, List.map_append, ihl h.1, ihr h.2]

private theorem links_lowerOperands {e : Expr} (h : KeepsChains d e) :
    (e.lowerOperands d).links = e.links.map (lower d) := by
  cases e with
  | logical op l r =>
    have hchain := chain_lower h
    rwa [lower_logical] at hchain
  | _ => exact operands_lowerOperands d _

/-- A condition on fields remains the node that it is. -/
private theorem sameNode_lower {left right : List Expr} {e : Expr}
    (h : RowCompare.Fieldwise left right e) :
    SameNode e (e.lower d) := by
  cases h with
  | compare op h => rw [lower_compare]; exact .compare ..
  | logical op ha hb => rw [lower_logical]; exact .logical ..
  | not ha => rw [lower_not]; exact .not ..

end Expr

private theorem RowCompare.Fieldwise.of_mem_chain {left right : List Expr} {op : Connective}
    {e x : Expr} (h : Fieldwise left right e) (hx : x ∈ e.chain op) : Fieldwise left right x := by
  induction e using Expr.chain_induction op with
  | link e hne =>
    rw [Expr.chain_of_ne hne, List.mem_singleton] at hx
    exact hx ▸ h
  | node l r ihl ihr =>
    cases h with
    | logical op hl hr =>
      rw [Expr.chain_logical, List.mem_append] at hx
      exact hx.elim (ihl hl) (ihr hr)

namespace Expr

/-- The conditions that a rewrite adds remain what they are, so that only those of the operands can
    become chains. -/
private theorem everywhere_keepsChains_rewrite {e e' : Expr} (h : e.rewrite d = some e')
    (hkeeps : e.Everywhere (KeepsChains d)) : e'.Everywhere (KeepsChains d) := by
  cases e with
  | overlay source replacement start length =>
    refine Overlay.everywhere_rewrite h hkeeps ?_
    simp [Overlay.additions, Overlay.alternate, Overlay.emulated, Overlay.head, Overlay.tail, sub,
      add, literal, KeepsChains]
  | rowCompare op left right =>
    refine RowCompare.everywhere_rewrite h hkeeps (fun _ _ _ _ => trivial) ?_ ?_
    · intro op a b ha hb x hx a' b' hlower
      have hfieldwise := (RowCompare.Fieldwise.logical op ha hb).of_mem_chain hx
      have hnode : SameNode x (.logical op a' b') := hlower ▸ sameNode_lower hfieldwise
      cases hnode
      exact ne_logical_of_mem_chain hx _ _ rfl
    · exact fun a ha => (sameNode_lower ha).isLogical_eq
  | _ => cases h

/-! ## Writes -/

/-- What is collected from the pieces of a node is collected from the node with its operands
    lowered, as long as the links below it are worth the same when they are lowered. -/
theorem flatMap_nativePieces_lowerOperands {g : Piece → List α} {e : Expr} (h : KeepsChains d e)
    (hlinks : ∀ x ∈ e.links, g (.visit (x.lower d)) = g (.visit x)) :
    ((e.lowerOperands d).nativePieces d).flatMap g = (e.nativePieces d).flatMap g := by
  have hnode := sameNode_lowerOperands d e
  have hrel : List.Forall₂ (fun x x' => x' = x.lower d ∧ g (.visit x) = g (.visit x')) e.links
      (e.lowerOperands d).links := by
    rw [links_lowerOperands h, List.forall₂_map_right_iff]
    exact List.forall₂_same.2 fun x hx => ⟨rfl, (hlinks x hx).symm⟩
  have hpieces : List.Forall₂ (fun p p' => g p = g p') (e.nativePieces d)
      ((e.lowerOperands d).nativePieces d) := by
    refine forall₂_nativePieces (P := fun p p' => g p = g p') (fun _ => rfl) (fun hx => hx.2) hnode
      ?_ d hrel
    rintro x x' rfl ⟨rfl, -⟩
    exact Eq.symm h
  have hmap : (e.nativePieces d).map g = ((e.lowerOperands d).nativePieces d).map g := by
    rwa [← List.forall₂_eq_eq_eq, List.forall₂_map_left_iff, List.forall₂_map_right_iff]
  rw [List.flatMap_def, List.flatMap_def, hmap]

/-- If no link becomes a chain, the lowered tree is written as the expression is. -/
theorem writes_lower {e : Expr} (h : e.Everywhere (KeepsChains d)) :
    (e.lower d).writes d = e.writes d := by
  induction e using visit_induction d with
  | node e ih =>
    unfold pieces at ih
    cases hrewrite : e.rewrite d with
    | some e' =>
      rw [hrewrite] at ih
      rw [lower_of_rewrite hrewrite, writes_of_rewrite hrewrite]
      exact ih e' List.mem_cons_self (everywhere_keepsChains_rewrite hrewrite h)
    | none =>
      rw [hrewrite] at ih
      rw [lower_of_native hrewrite, writes_of_native (rewrite_lowerOperands hrewrite),
        writes_of_native hrewrite]
      refine flatMap_nativePieces_lowerOperands h.self fun x hx => ?_
      exact ih x (visit_mem_nativePieces.2 hx) (h.of_mem_links hx)

/-- Where rows are not compared by their fields, a node remains what it is, or it is an overlay that
    becomes a call. -/
private theorem sameNode_or_call
    (hrows : ∀ op left right, (Expr.rowCompare op left right).rewrite d = none) (e : Expr) :
    SameNode e (e.lower d) ∨ e.isLogical = false ∧ ∃ f args, e.lower d = .call f args := by
  cases hrewrite : e.rewrite d with
  | none =>
    rw [lower_of_native hrewrite]
    exact .inl (sameNode_lowerOperands d e)
  | some e' =>
    right
    rw [lower_of_rewrite hrewrite]
    cases e with
    | overlay source replacement start length =>
      rw [rewrite] at hrewrite
      cases hsupport : d.support .overlay with
      | native => rw [hsupport] at hrewrite; cases hrewrite
      | alternate | emulated =>
        rw [hsupport] at hrewrite
        cases hrewrite
        exact ⟨rfl, _, _, lower_call _ _⟩
    | rowCompare op left right => rw [hrows] at hrewrite; cases hrewrite
    | _ => cases hrewrite

/-- A dialect that compares rows itself is handed the lowered tree as it is. -/
theorem writes_lower_of_rows
    (hrows : ∀ op left right, (Expr.rowCompare op left right).rewrite d = none) (e : Expr) :
    (e.lower d).writes d = e.writes d := by
  refine writes_lower fun x _ => ?_
  cases x with
  | logical op l r =>
    intro x hx a b hlower
    rcases sameNode_or_call hrows x with hnode | ⟨-, f, args, hcall⟩
    · rw [hlower] at hnode
      cases hnode
      exact ne_logical_of_mem_chain hx _ _ rfl
    · cases hlower.symm.trans hcall
  | not x =>
    rcases sameNode_or_call hrows x with hnode | ⟨hlogical, f, args, hcall⟩
    · exact hnode.isLogical_eq
    · exact (congrArg isLogical hcall).trans hlogical.symm
  | _ => trivial

end Expr

/-! ## Writes without parentheses -/

def Write.isParenthesis (w : Write) : Bool := w ∈ [.sql "(", .sql ")"]

/-- What is written besides parentheses. -/
def Expr.bareWrites (d : Dialect) (e : Expr) : List Write := (e.writes d).filter (!·.isParenthesis)

/-- The writes of one piece besides parentheses. -/
def Piece.bareWrites (d : Dialect) (p : Piece) : List Write :=
  (p.writes d).filter (!·.isParenthesis)

namespace Expr

theorem bareWrites_of_native {e : Expr} (h : e.rewrite d = none) :
    e.bareWrites d = (e.nativePieces d).flatMap (Piece.bareWrites d) := by
  rw [bareWrites, writes_of_native h, List.filter_flatMap]
  rfl

/-- Without parentheses, a chain is written as both sides of its root are, however they are
    nested. -/
private theorem bareWrites_logical (op : Connective) (l r : Expr) :
    (Expr.logical op l r).bareWrites d =
      l.bareWrites d ++ [.sql " ", .keyword op.keyword, .sql " "] ++ r.bareWrites d := by
  let gap : List Write := [.sql " ", .keyword op.keyword, .sql " "]
  have hroot (l r : Expr) : (Expr.logical op l r).bareWrites d =
      gap.intercalate (((Expr.logical op l r).chain op).map (bareWrites d)) := by
    rw [bareWrites_of_native rfl, nativePieces]
    simp only [List.flatMap_append, Piece.flatMap_visits_intercalate]
    exact List.append_nil _
  have hchain (e : Expr) : gap.intercalate ((e.chain op).map (bareWrites d)) = e.bareWrites d := by
    by_cases h : ∃ l r, e = .logical op l r
    · obtain ⟨l, r, rfl⟩ := h
      exact (hroot l r).symm
    · rw [chain_of_ne fun l r he => h ⟨l, r, he⟩]
      exact List.append_nil _
  have hne (e : Expr) : (e.chain op).map (bareWrites d) ≠ [] := by simp [chain_ne_nil]
  rw [hroot, chain_logical, List.map_append, intercalate_append gap (hne l) (hne r), hchain, hchain]

private theorem bareWrites_not (e : Expr) :
    (Expr.not e).bareWrites d = [.keyword .not, .sql " "] ++ e.bareWrites d := by
  have hcondition := congrArg ([.keyword .not, .sql " "] ++ ·) (List.append_nil (e.bareWrites d))
  rw [bareWrites_of_native rfl, nativePieces]
  split
  · exact hcondition
  · exact hcondition

/-- What is written for an expression besides parentheses is what is written for the lowered
    tree. -/
theorem bareWrites_lower (d : Dialect) (e : Expr) :
    (e.lower d).bareWrites d = e.bareWrites d := by
  induction h : e.height using Nat.strongRecOn generalizing e with
  | _ n ih =>
  subst h
  cases hrewrite : e.rewrite d with
  | some e' =>
    rw [lower_of_rewrite hrewrite, ih _ (height_rewrite_lt hrewrite) e' rfl, bareWrites, bareWrites,
      writes_of_rewrite hrewrite]
  | none =>
    have hoperands (x : Expr) (hx : x ∈ e.operands) : (x.lower d).bareWrites d = x.bareWrites d :=
      ih _ (height_lt_of_mem_operands hx) x rfl
    -- Chains and `NOT` are the nodes whose parentheses depend on what is below them.
    have hother (hkeeps : KeepsChains d e) : (e.lower d).bareWrites d = e.bareWrites d := by
      rw [lower_of_native hrewrite, bareWrites_of_native (rewrite_lowerOperands hrewrite),
        bareWrites_of_native hrewrite]
      refine flatMap_nativePieces_lowerOperands hkeeps fun x hx => ?_
      exact ih _ (height_lt_of_mem_links hx) x rfl
    cases e with
    | logical op l r =>
      rw [lower_logical, bareWrites_logical, bareWrites_logical, hoperands l, hoperands r]
      · simp [operands, slots]
      · simp [operands, slots]
    | not e =>
      rw [lower_not, bareWrites_not, bareWrites_not, hoperands e]
      simp [operands, slots]
    | _ => exact hother trivial

end Expr

end SqlExpr
