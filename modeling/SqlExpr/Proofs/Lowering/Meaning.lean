-- SUMMARY: Lowering keeps the meaning of expressions on every dialect.
import SqlExpr.Expr.Kind
import SqlExpr.Proofs.Expr.Everywhere
import SqlExpr.Proofs.Lowering.Basic
import SqlExpr.Proofs.Overlay.Additions
import SqlExpr.Proofs.Overlay.Evaluation
import SqlExpr.Proofs.Row.Fieldwise
import SqlExpr.Proofs.Row.Orders
import SqlExpr.Proofs.Semantics.Lists

/-!
# The meaning of lowered expressions

A rewrite evaluates as the construct it replaces (`Expr.eval_rewrite`), and so the tree
that is rendered on a dialect evaluates as the tree that was built (`Expr.eval_lower`).
That it is the lowered tree which is written on the dialect is `Expr.bareWrites_lower`.
The one condition is on overlays where `INSERT` stands for them: `INSERT` leaves the
source as it is when the start lies outside of it, where a splice still appends.
-/

namespace SqlExpr

/-! ## Row comparisons -/

namespace RowCompare

variable {env : Column → Datum}

/-- Without fields there is nothing to compare, and no rewrite. -/
private theorem rewrite_of_no_fields (op : Comparator) (right : Row) (s : Support) :
    (RowCompare.mk op ⟨[]⟩ right).rewrite s = none := by
  obtain ⟨fields⟩ := right
  cases s with
  | emulated => cases op <;> cases fields <;> rfl
  | _ => rfl

/-- Only a dialect that lacks the comparison rewrites it. -/
private theorem eq_emulated_of_rewrite {c : RowCompare} {s : Support} {e : Expr}
    (h : c.rewrite s = some e) : s = .emulated := by
  cases s with
  | emulated => rfl
  | _ => cases h

/-- The rewrite of a row comparison evaluates as the comparison does. -/
theorem eval_rewrite {c : RowCompare} {s : Support} {e : Expr} {v : Datum}
    (h : c.rewrite s = some e) (hv : c.toExpr.eval env = some v) : e.eval env = some v := by
  obtain ⟨op, ⟨left⟩, ⟨right⟩⟩ := c
  cases eq_emulated_of_rewrite h
  simp only [toExpr, Expr.eval, Datum.rowCompare?, Option.bind_eq_bind, Option.bind_eq_some_iff,
    Option.pure_def, Option.some.injEq] at hv
  obtain ⟨ls, hls, rs, hrs, orders, horders, rfl⟩ := hv
  have hne : left ≠ [] := by
    rintro rfl
    rw [rewrite_of_no_fields] at h
    cases h
  obtain ⟨e', he', htruth⟩ := truth_rewrite (c := ⟨op, ⟨left⟩, ⟨right⟩⟩)
    (fieldOrders_holdsIn hls hrs horders) hne
  cases he'.symm.trans h
  exact Expr.eval_of_truth htruth

end RowCompare

namespace Expr

variable {d : Dialect} {env : Column → Datum}

/-! ## Rewrites -/

/-- Where the dialect has another function for overlays, the start of the overlay lies inside of
    its source, or one of its operands is `NULL`. -/
def StartsWhereInserted (d : Dialect) (env : Column → Datum) : Expr → Prop
  | .overlay source replacement start length =>
    d.support .overlay = .alternate →
      Overlay.HasNull env ⟨source, replacement, start, length⟩ ∨
      Overlay.StartsInside env ⟨source, replacement, start, length⟩
  | _ => True

theorem eval_rewrite {e e' : Expr} {v : Datum} (h : e.rewrite d = some e')
    (hv : e.eval env = some v) (hstart : StartsWhereInserted d env e) : e'.eval env = some v := by
  cases e with
  | overlay source replacement start length =>
    rw [rewrite] at h
    cases hsupport : d.support .overlay with
    | native => rw [hsupport] at h; cases h
    | alternate =>
      rw [hsupport] at h
      cases h
      exact Overlay.eval_alternate hv (hstart hsupport)
    | emulated =>
      rw [hsupport] at h
      cases h
      exact Overlay.eval_emulated hv
  | rowCompare op left right => exact RowCompare.eval_rewrite h hv
  | _ => cases h

/-- A condition on overlays alone passes from a construct to its rewrite, which holds no overlay
    but those of the operands. -/
theorem Everywhere.rewrite {P : Expr → Prop} {e e' : Expr} (h : e.rewrite d = some e')
    (hP : e.Everywhere P) (hother : ∀ x, x.kind ≠ .overlay → P x) : e'.Everywhere P := by
  cases e with
  | overlay source replacement start length =>
    refine Overlay.everywhere_rewrite h hP fun x hx => hother x ?_
    revert x
    simp [Overlay.additions, Overlay.alternate, Overlay.emulated, Overlay.head, Overlay.tail, sub,
      add, literal, kind]
  | rowCompare op left right =>
    exact RowCompare.everywhere_rewrite h hP (fun _ _ _ _ => hother _ (by simp [kind]))
      (fun _ _ _ _ _ => hother _ (by simp [kind])) fun _ _ => hother _ (by simp [kind])
  | _ => cases h

/-! ## Lowering -/

/-- The tree that is rendered on a dialect evaluates as the tree that was built. -/
theorem eval_lower {e : Expr} {v : Datum} (hv : e.eval env = some v)
    (hstart : e.Everywhere (StartsWhereInserted d env)) : (e.lower d).eval env = some v := by
  induction e using lowering_induction d generalizing v with
  | rewritten e e' h ih =>
    rw [lower_of_rewrite h]
    refine ih (eval_rewrite h hv hstart.self) (Everywhere.rewrite h hstart ?_)
    intro x hx
    cases x with
    | overlay => exact absurd rfl hx
    | _ => trivial
  | column c => simpa using hv
  | constant c => simpa using hv
  | call f args ih =>
    simp only [eval, Option.bind_eq_bind, Option.bind_eq_some_iff] at hv
    obtain ⟨vs, hvs, hv⟩ := hv
    have hargs := evalList_map hvs fun a ha v hv =>
      ih a ha hv ((Everywhere.call.1 hstart).2 a ha)
    simp [eval, hargs, hv]
  | arith op l r ihl ihr =>
    obtain ⟨-, hl, hr⟩ := Everywhere.arith.1 hstart
    simp only [eval, Option.bind_eq_bind, Option.bind_eq_some_iff] at hv
    obtain ⟨a, ha, b, hb, hv⟩ := hv
    simp [eval, ihl ha hl, ihr hb hr, hv]
  | compare op l r ihl ihr =>
    obtain ⟨-, hl, hr⟩ := Everywhere.compare.1 hstart
    simp only [eval, Option.bind_eq_bind, Option.bind_eq_some_iff] at hv
    obtain ⟨a, ha, b, hb, hv⟩ := hv
    simp [eval, ihl ha hl, ihr hb hr, hv]
  | logical op l r ihl ihr =>
    obtain ⟨-, hl, hr⟩ := Everywhere.logical.1 hstart
    simp only [eval, Option.bind_eq_bind, Option.bind_eq_some_iff] at hv
    obtain ⟨a, ha, b, hb, hv⟩ := hv
    simp [eval, ihl ha hl, ihr hb hr, hv]
  | not e ih =>
    simp only [eval, Option.bind_eq_bind, Option.bind_eq_some_iff] at hv
    obtain ⟨a, ha, hv⟩ := hv
    simp [eval, ih ha (Everywhere.not.1 hstart).2, hv]
  | row fields ih => cases hv
  | overlay source replacement start length h ihsource ihreplacement ihstart ihlength =>
    obtain ⟨-, hs, hr, hp, hn⟩ := Everywhere.overlay.1 hstart
    simp only [eval, Option.bind_eq_bind, Option.bind_eq_some_iff] at hv
    obtain ⟨s, hsource, r, hreplacement, p, hposition, n, hlength, hv⟩ := hv
    have hlength' := evalOption_map hlength fun e he v hv => ihlength e he hv (hn e he)
    simp [lower_overlay h, eval, ihsource hsource hs, ihreplacement hreplacement hr,
      ihstart hposition hp, hlength', hv]
  | rowCompare op left right h ihleft ihright =>
    obtain ⟨-, hl, hr⟩ := Everywhere.rowCompare.1 hstart
    simp only [eval, Option.bind_eq_bind, Option.bind_eq_some_iff] at hv
    obtain ⟨ls, hls, rs, hrs, hv⟩ := hv
    have hls' := evalList_map hls fun a ha v hv => ihleft a ha hv ((Everywhere.row.1 hl).2 a ha)
    have hrs' := evalList_map hrs fun a ha v hv => ihright a ha hv ((Everywhere.row.1 hr).2 a ha)
    simp [lower_rowCompare h, eval, hls', hrs', hv]

/-- An overlay of an overlay among the fields of a row: on MySQL both become `INSERT`, and the
    rows stay equal. -/
theorem eval_lower_mysql_nested :
    let env : Column → Datum := fun c => .text c.name.toList
    let inner := Expr.overlay (.column ⟨none, "abc", .unknown⟩) (.column ⟨none, "x", .unknown⟩)
      (.bind (.int 1)) none
    let outer := Expr.overlay inner (.column ⟨none, "y", .unknown⟩) (.bind (.int 3)) none
    let e := Expr.rowCompare .eq [outer, .bind (.int 1)] [.bind (.text "xby"), .bind (.int 1)]
    e.eval env = some (.bool true) ∧ e.Everywhere (StartsWhereInserted .mysql env) ∧
      (e.lower .mysql).eval env = some (.bool true) := by
  intro env inner outer e
  have hv : e.eval env = some (.bool true) := by decide
  have hinner : Overlay.StartsInside env ⟨.column ⟨none, "abc", .unknown⟩,
      .column ⟨none, "x", .unknown⟩, .bind (.int 1), none⟩ :=
    ⟨.text "abc".toList, 1, 3, rfl, rfl, by decide, by decide, by decide⟩
  have houter : Overlay.StartsInside env ⟨inner, .column ⟨none, "y", .unknown⟩,
      .bind (.int 3), none⟩ :=
    ⟨.text "xbc".toList, 3, 3, by decide, rfl, by decide, by decide, by decide⟩
  have hstart : e.Everywhere (StartsWhereInserted .mysql env) := by
    simp [e, outer, inner, Expr.bind, StartsWhereInserted]
    exact ⟨fun _ => .inr houter, fun _ => .inr hinner⟩
  exact ⟨hv, hstart, eval_lower hv hstart⟩

end Expr

end SqlExpr
