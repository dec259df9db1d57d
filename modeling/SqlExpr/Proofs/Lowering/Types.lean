-- SUMMARY: The types of rewrites: which keep the type of the construct, and what follows for overlays around them.
import SqlExpr.Proofs.Expr.Obtainable
import SqlExpr.Proofs.Lowering.Basic
import SqlExpr.Proofs.Overlay.Additions
import SqlExpr.Proofs.Row.Fieldwise

/-!
# Types of rewrites

A function on strings has the type of its first argument, so the rewrites of an overlay have the type
of the source. An overlay itself falls back on the replacement, and a source of unknown type beside a
replacement of known type is where the rewrite does not tell the type any more
(`Overlay.dataType_rewrite_eq_iff`). Conditions are boolean before and after. An overlay around
rewritten operands that have kept their types splices the same units
(`Expr.dataType_of_rewrites`).
-/

namespace SqlExpr

namespace Overlay

/-! ## Types of rewrites -/

/-- The rewrites go by the source alone. -/
theorem dataType_rewrite {o : Overlay} {s : Support} {e : Expr} (h : o.rewrite s = some e) :
    e.dataType = o.source.dataType := by
  have hconcat : o.concatFunction.isLength = false := by
    unfold concatFunction
    split <;> rfl
  cases s with
  | native => cases h
  | alternate =>
    cases h
    rfl
  | emulated =>
    cases h
    simp only [emulated, head, Expr.dataType, hconcat]
    rfl

/-- A rewrite has the type of the overlay, unless the overlay has it from the replacement alone. -/
theorem dataType_rewrite_eq_iff {o : Overlay} {s : Support} {e : Expr} (h : o.rewrite s = some e) :
    e.dataType = o.dataType ↔
      o.source.dataType ≠ .unknown ∨ o.replacement.dataType = .unknown := by
  rw [dataType_rewrite h, dataType]
  by_cases hsource : o.source.dataType = .unknown
  · rw [hsource, DataType.unknown_orElse]
    simp [eq_comm]
  · rw [DataType.orElse_of_ne_unknown hsource]
    simp [hsource]

/-! ## Overlays around rewrites -/

variable {source replacement start length source' replacement' start' length' : Option Expr}

section Checks

variable {a b : Expr} (h : a.dataType = b.dataType)
include h

theorem require_congr (operand : Nat) (expected : Requirement) (accepts : DataType → Bool) :
    require operand expected accepts a = require operand expected accepts b := by
  rw [require, require, h]

theorem requireString_congr (operand : Nat) (t : DataType) :
    requireString operand t a = requireString operand t b := by
  rw [requireString, requireString, require_congr h, require_congr h]

theorem requireNumeric_congr (operand : Nat) : requireNumeric operand a = requireNumeric operand b :=
  require_congr h operand _ _

end Checks

private theorem dataType_getD (h : source.map Expr.dataType = source'.map Expr.dataType)
    (e : Expr) : (source.getD e).dataType = (source'.getD e).dataType := by
  rw [← Option.getD_map Expr.dataType, ← Option.getD_map Expr.dataType, h]

private theorem isBinary_orElse_varchar (t : DataType) :
    (t.orElse (.varchar none)).isBinary = t.isBinary := by
  cases t <;> rfl

private theorem isBinary_retyped (s r p : Expr) (n : Option Expr) :
    isBinary ⟨s.retyped (stringType s r), r.retyped (stringType s r), p, n⟩ =
      (stringType s r).isBinary := by
  calc isBinary ⟨s.retyped (stringType s r), r.retyped (stringType s r), p, n⟩
      = (stringType (s.retyped (stringType s r)) (r.retyped (stringType s r))).isBinary :=
        (isBinary_orElse_varchar _).symm
    _ = (stringType s r).isBinary := by rw [stringType_retyped]

/-- What an overlay is built of shows in its family by the checks alone. -/
private theorem isBinary_ofOperands (source replacement start length : Option Expr) :
    isBinary <$> ofOperands source replacement start length = do
      let s := source.getD (.null .unknown)
      let r := replacement.getD (.null .unknown)
      requireString 0 (stringType s r) s
      requireString 1 (stringType s r) r
      requireNumeric 2 (start.getD (.null .unknown))
      if let some n := length then
        requireNumeric 3 n
      return (stringType s r).isBinary := by
  simp only [ofOperands, map_bind]
  refine bind_congr fun _ => bind_congr fun _ => bind_congr fun _ => ?_
  cases length with
  | none => exact congrArg Except.ok (isBinary_retyped _ _ _ _)
  | some n =>
    refine (map_bind _ (requireNumeric 3 n) _).trans (bind_congr fun _ => ?_)
    exact congrArg Except.ok (isBinary_retyped _ _ _ _)

theorem isBinary_ofOperands_congr (hs : source.map Expr.dataType = source'.map Expr.dataType)
    (hr : replacement.map Expr.dataType = replacement'.map Expr.dataType)
    (hp : start.map Expr.dataType = start'.map Expr.dataType)
    (hn : length.map Expr.dataType = length'.map Expr.dataType) :
    isBinary <$> ofOperands source replacement start length =
      isBinary <$> ofOperands source' replacement' start' length' := by
  have hs := dataType_getD hs (.null .unknown)
  have hr := dataType_getD hr (.null .unknown)
  have hp := dataType_getD hp (.null .unknown)
  rw [isBinary_ofOperands, isBinary_ofOperands]
  simp only [stringType, hs, hr, requireString_congr hs, requireString_congr hr,
    requireNumeric_congr hp]
  refine bind_congr fun _ => bind_congr fun _ => bind_congr fun _ => ?_
  cases length with
  | none =>
    cases length' with
    | none => rfl
    | some n' => cases hn
  | some n =>
    cases length' with
    | none => cases hn
    | some n' => exact congrArg (· >>= _) (requireNumeric_congr (Option.some.inj hn) 3)

end Overlay

/-- The rewrite of a comparison of rows is a condition. -/
theorem RowCompare.dataType_rewrite {c : RowCompare} {s : Support} {e : Expr}
    (h : c.rewrite s = some e) : e.dataType = .boolean := by
  cases fieldwise_rewrite h with
  | _ => rfl

namespace Expr

variable {d : Dialect} {e e' : Expr}

/-- The type of the node, if it is an overlay, is that of its source, so that rewrites keep it. -/
def KeepsType : Expr → Prop
  | .overlay source replacement _ _ =>
    source.dataType ≠ .unknown ∨ replacement.dataType = .unknown
  | _ => True

private theorem dataType_rewrite (h : e.rewrite d = some e') (hkeeps : KeepsType e) :
    e'.dataType = e.dataType := by
  cases e with
  | overlay source replacement start length => exact (Overlay.dataType_rewrite_eq_iff h).2 hkeeps
  | rowCompare op left right => exact RowCompare.dataType_rewrite h
  | _ => cases h

/-- Rewrites bring no overlays of their own. -/
private theorem everywhere_keepsType_rewrite (h : e.rewrite d = some e')
    (hkeeps : e.Everywhere KeepsType) : e'.Everywhere KeepsType := by
  cases e with
  | overlay source replacement start length =>
    refine Overlay.everywhere_rewrite h hkeeps ?_
    simp [Overlay.additions, Overlay.alternate, Overlay.emulated, Overlay.head, Overlay.tail, sub,
      add, literal, KeepsType]
  | rowCompare op left right =>
    refine RowCompare.everywhere_rewrite h hkeeps ?_ ?_ ?_
    · simp [KeepsType]
    · simp [KeepsType]
    · simp [KeepsType]
  | _ => cases h

/-- What is rendered in place of a tree has its type, if every overlay in it has a type that
    rewrites keep. -/
theorem dataType_lower (d : Dialect) (hkeeps : e.Everywhere KeepsType) :
    (e.lower d).dataType = e.dataType := by
  induction e using lowering_induction d with
  | rewritten e e' hrewrite ih =>
    rw [lower_of_rewrite hrewrite, ih (everywhere_keepsType_rewrite hrewrite hkeeps),
      dataType_rewrite hrewrite hkeeps.self]
  | column c => rw [lower_column]
  | constant c => rw [lower_constant]
  | call f args ih =>
    obtain ⟨-, hargs⟩ := Everywhere.call.1 hkeeps
    rw [lower_call]
    cases args with
    | nil => rfl
    | cons a args =>
      rw [List.map_cons, dataType, dataType, ih a (by simp) (hargs a (by simp))]
  | arith op l r ihl ihr =>
    obtain ⟨-, hl, hr⟩ := Everywhere.arith.1 hkeeps
    rw [lower_arith, dataType, dataType, ihl hl, ihr hr]
  | compare op l r => rw [lower_compare, dataType, dataType]
  | logical op l r => rw [lower_logical, dataType, dataType]
  | not e => rw [lower_not, dataType, dataType]
  | row fields => rw [lower_row, dataType, dataType, List.length_map]
  | overlay source replacement start length hnative ihs ihr =>
    obtain ⟨-, hs, hr, -⟩ := Everywhere.overlay.1 hkeeps
    rw [lower_overlay hnative, dataType, dataType, ihs hs, ihr hr]
  | rowCompare op left right hnative => rw [lower_rowCompare hnative, dataType, dataType]

/-- The operand `e`, or what stands for it once it has been rewritten with its type kept: at its
    root at some level of support, or throughout for a dialect. -/
inductive RewrittenInType : Expr → Expr → Prop
  | refl (e : Expr) : RewrittenInType e e
  | overlay {o : Overlay} {s : Support} {e : Expr} (h : o.rewrite s = some e)
    (hkeeps : o.source.dataType ≠ .unknown ∨ o.replacement.dataType = .unknown) :
    RewrittenInType o.toExpr e
  | rowCompare {c : RowCompare} {s : Support} {e : Expr} (h : c.rewrite s = some e) :
    RewrittenInType c.toExpr e
  | lower (d : Dialect) {e : Expr} (hkeeps : e.Everywhere KeepsType) :
    RewrittenInType e (e.lower d)

theorem RewrittenInType.dataType_eq (h : RewrittenInType e e') : e'.dataType = e.dataType := by
  cases h with
  | refl => rfl
  | overlay h hkeeps => exact (Overlay.dataType_rewrite_eq_iff h).2 hkeeps
  | rowCompare h => exact RowCompare.dataType_rewrite h
  | lower d hkeeps => exact dataType_lower d hkeeps

private theorem map_dataType_of_rel {o o' : Option Expr} (h : Option.Rel RewrittenInType o o') :
    o.map dataType = o'.map dataType := by
  cases h with
  | none => rfl
  | some h => exact congrArg some h.dataType_eq.symm

/-- Every rewrite of an overlay has the type of the source, which is that of the overlay unless only
    the replacement has a known type. The rewrite of a comparison of rows is boolean as the
    comparison is. Where all overlays of a tree keep their types, so does the tree that is rendered
    in its place. An overlay of rewritten operands that have kept their types is built or rejected
    as that of the operands themselves, and splices the same units. -/
theorem dataType_of_rewrites :
    (∀ (o : Overlay) (s : Support), s ≠ .native → ∃ e, o.rewrite s = some e ∧
      e.dataType = o.source.dataType ∧
      (e.dataType = o.dataType ↔
        o.source.dataType ≠ .unknown ∨ o.replacement.dataType = .unknown)) ∧
    (∀ c : RowCompare, c.toExpr.Obtainable → ∃ e, c.rewrite .emulated = some e ∧
      e.dataType = .boolean ∧ c.toExpr.dataType = .boolean) ∧
    (∀ (d : Dialect) (e : Expr), e.Everywhere KeepsType → (e.lower d).dataType = e.dataType) ∧
    (∀ source replacement start length source' replacement' start' length' : Option Expr,
      Option.Rel RewrittenInType source source' →
      Option.Rel RewrittenInType replacement replacement' →
      Option.Rel RewrittenInType start start' → Option.Rel RewrittenInType length length' →
      Overlay.isBinary <$> Overlay.ofOperands source replacement start length =
        Overlay.isBinary <$> Overlay.ofOperands source' replacement' start' length') := by
  refine ⟨fun o s hs => ?_, fun c hc => ?_, fun d e => dataType_lower d, ?_⟩
  · obtain ⟨e, he⟩ : ∃ e, o.rewrite s = some e := by
      cases s with
      | native => exact absurd rfl hs
      | alternate | emulated => exact ⟨_, rfl⟩
    exact ⟨e, he, Overlay.dataType_rewrite he, Overlay.dataType_rewrite_eq_iff he⟩
  · obtain ⟨hne, hlength⟩ := hc.rowCompare_fields
    obtain ⟨e, he⟩ := RowCompare.exists_rewrite hne hlength
    exact ⟨e, he, RowCompare.dataType_rewrite he, rfl⟩
  · intro source replacement start length source' replacement' start' length' hs hr hp hn
    exact Overlay.isBinary_ofOperands_congr (map_dataType_of_rel hs) (map_dataType_of_rel hr)
      (map_dataType_of_rel hp) (map_dataType_of_rel hn)

/-- An overlay of bytes as the source of another, in which all else is of unknown type. The outer
    one splices bytes also if the inner one has been rewritten. A comparison with the inner one is a
    condition before and after. -/
theorem dataType_of_rewrites_payload :
    let payload : Expr := .column ⟨none, "payload", .blob⟩
    let patch : Expr := .column ⟨none, "patch", .unknown⟩
    let one : Expr := .literal (.int 1)
    let inner : Overlay := ⟨payload, patch, one, none⟩
    let c : RowCompare := ⟨.lt, ⟨[inner.toExpr]⟩, ⟨[patch]⟩⟩
    (∃ e, inner.rewrite .alternate = some e ∧ e.dataType = inner.dataType) ∧
      (∃ e, c.rewrite .emulated = some e ∧ e.dataType = .boolean) ∧
      inner.toExpr.Everywhere KeepsType ∧ (inner.toExpr.lower .duckdb).dataType = .blob ∧
      Overlay.isBinary <$>
        Overlay.ofOperands (some (inner.toExpr.lower .duckdb)) (some patch) (some one) none =
          .ok true := by
  intro payload patch one inner c
  have hgiven {x : Expr} (hx : Obtainable x) : ∀ a ∈ some x, Obtainable a := by
    rintro a ⟨⟩
    exact hx
  have hnone : ∀ a ∈ (none : Option Expr), Obtainable a := by simp
  have hinner : Obtainable inner.toExpr :=
    @Obtainable.overlay payload patch one none inner (hgiven (.column _)) (hgiven (.column _))
      (hgiven (.literal _)) hnone rfl
  have hc : Obtainable c.toExpr := .rowCompare hinner (.column _) rfl
  have hkeeps : inner.toExpr.Everywhere KeepsType := by
    simp [inner, payload, patch, one, Overlay.toExpr, KeepsType, literal, dataType]
  obtain ⟨hoverlay, hcompare, hlower, houter⟩ := dataType_of_rewrites
  obtain ⟨e, he, -, htype⟩ := hoverlay inner .alternate (by decide)
  obtain ⟨e', he', hboolean, -⟩ := hcompare c hc
  have hbefore : Overlay.isBinary <$>
      Overlay.ofOperands (some inner.toExpr) (some patch) (some one) none = .ok true := rfl
  refine ⟨⟨e, he, htype.2 (.inl (by decide))⟩, ⟨e', he', hboolean⟩, hkeeps, hlower .duckdb _ hkeeps, ?_⟩
  rw [← hbefore]
  exact (houter _ _ _ _ _ _ _ _ (.some (.lower .duckdb hkeeps)) (.some (.refl patch))
    (.some (.refl one)) .none).symm

/-- An overlay of an untyped column and a column of bytes splices bytes, and so does an overlay
    around it. Its rewrites are of unknown type, and an overlay around them splices characters. -/
theorem dataType_rewrite_of_untyped_source :
    let name : Expr := .column ⟨none, "name", .unknown⟩
    let payload : Expr := .column ⟨none, "payload", .blob⟩
    let one : Expr := .literal (.int 1)
    let o : Overlay := ⟨name, payload, one, none⟩
    Overlay.ofOperands (some name) (some payload) (some one) none = .ok o ∧
      o.dataType = .blob ∧ o.rewrite .emulated = some o.emulated ∧
      o.emulated.dataType = .unknown ∧ o.rewrite .alternate = some o.alternate ∧
      o.alternate.dataType = .unknown ∧
      Overlay.isBinary <$> Overlay.ofOperands (some o.toExpr) (some name) (some one) none =
        .ok true ∧
      Overlay.isBinary <$> Overlay.ofOperands (some o.emulated) (some name) (some one) none =
        .ok false :=
  ⟨rfl, rfl, rfl, rfl, rfl, rfl, rfl, rfl⟩

end Expr

end SqlExpr
