-- SUMMARY: The nodes that the rewrites of overlays add to their operands.
import SqlExpr.Overlay.Rewrite
import SqlExpr.Proofs.Expr.Everywhere

/-!
# Additions

Both rewrites of an overlay put calls, sums and a constant around its operands and hold
nothing else (`Overlay.everywhere_rewrite`).
-/

namespace SqlExpr.Overlay

/-- The nodes of the rewrites of an overlay that are no part of its operands. -/
def additions (o : Overlay) : List Expr :=
  [.call o.lengthFunction [o.replacement], o.alternate, o.emulated,
    .call o.concatFunction [o.head, o.replacement], o.head, o.tail, .literal (.int 1),
    o.start.sub (.literal (.int 1)), o.start.add o.effectiveLength]

variable {P : Expr → Prop} {o : Overlay}

private theorem everywhere_effectiveLength (h : o.toExpr.Everywhere P)
    (hnew : ∀ x ∈ o.additions, P x) : o.effectiveLength.Everywhere P := by
  obtain ⟨-, -, hreplacement, -, hlength⟩ := Expr.Everywhere.overlay.1 h
  unfold effectiveLength
  cases hgiven : o.length with
  | some n => exact hlength n (by simp [hgiven])
  | none =>
    refine Expr.Everywhere.call.2 ⟨hnew _ (by simp [additions]), ?_⟩
    intro a ha
    rwa [List.mem_singleton.1 ha]

/-- What holds everywhere in the operands of an overlay and of the additions holds everywhere in
    a rewrite. -/
theorem everywhere_rewrite {s : Support} {e : Expr} (h : o.rewrite s = some e)
    (hP : o.toExpr.Everywhere P) (hnew : ∀ x ∈ o.additions, P x) : e.Everywhere P := by
  have hlength := everywhere_effectiveLength hP hnew
  obtain ⟨-, hsource, hreplacement, hstart, -⟩ := Expr.Everywhere.overlay.1 hP
  simp only [additions, List.forall_mem_cons] at hnew
  obtain ⟨-, halternate, hemulated, hfront, hhead, htail, hone, hsub, hadd, -⟩ := hnew
  cases s with
  | native => cases h
  | alternate =>
    cases h
    refine Expr.Everywhere.call.2 ⟨halternate, ?_⟩
    simp [hsource, hstart, hlength, hreplacement]
  | emulated =>
    cases h
    have hone : (Expr.literal (.int 1)).Everywhere P := Expr.Everywhere.constant.2 hone
    have hstarts : (o.start.sub (.literal (.int 1))).Everywhere P :=
      Expr.Everywhere.arith.2 ⟨hsub, hstart, hone⟩
    have hends : (o.start.add o.effectiveLength).Everywhere P :=
      Expr.Everywhere.arith.2 ⟨hadd, hstart, hlength⟩
    have hhead : o.head.Everywhere P := by
      refine Expr.Everywhere.call.2 ⟨hhead, ?_⟩
      simp [hsource, hone, hstarts]
    have htail : o.tail.Everywhere P := by
      refine Expr.Everywhere.call.2 ⟨htail, ?_⟩
      simp [hsource, hends]
    refine Expr.Everywhere.call.2 ⟨hemulated, ?_⟩
    simp [hfront, hhead, hreplacement, htail]

end SqlExpr.Overlay
