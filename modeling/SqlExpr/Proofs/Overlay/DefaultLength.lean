-- SUMMARY: An overlay without a length is rewritten and rendered as the one that is given the default length.
import SqlExpr.Proofs.Expr.Operand
import SqlExpr.Render.Renderer

/-!
# The default length

`Overlay.effectiveLength` stands for a length that is absent. An overlay that was built takes it for
its length, where it is checked and typed as any other operand, and stays what it was: on the
dialects that lack overlays both are written as one expression
(`Overlay.rewrite_with_defaultLength`).
-/

namespace SqlExpr

/-! ## Rewrites in a rendering -/

namespace Expr

variable {ε σ : Type} {sink : Sink ε σ} {e e' x : Expr} {d : Dialect}

/-- Constructs with one rewrite are rendered alike into any sink. -/
private theorem renderInto_eq_of_rewrite (h : e.rewrite sink.dialect = some x)
    (h' : e'.rewrite sink.dialect = some x) : e.renderInto sink = e'.renderInto sink := by
  rw [renderInto_eq, renderInto_eq, pieces, h, pieces, h']

theorem visit_eq_of_rewrite {r : Renderer} (h : e.rewrite r.dialect = some x)
    (h' : e'.rewrite r.dialect = some x) : Renderer.visit e r = Renderer.visit e' r := by
  have hbody : e.renderInto (Renderer.sink r.dialect) = e'.renderInto (Renderer.sink r.dialect) :=
    renderInto_eq_of_rewrite h h'
  unfold Renderer.visit
  rw [hbody]

private theorem render_eq_of_rewrite (h : e.rewrite d = some x) (h' : e'.rewrite d = some x)
    (s : Settings) : e.render d s = e'.render d s := by
  have hvisit : Renderer.visit e { dialect := d, settings := s } =
      Renderer.visit e' { dialect := d, settings := s } := visit_eq_of_rewrite h h'
  unfold render
  rw [hvisit]

end Expr

/-! ## The default length as an operand -/

namespace Overlay

variable {source replacement start length : Option Expr} {o : Overlay}

/-- The overlay with its length written down. -/
def explicit (o : Overlay) : Overlay := { o with length := some o.effectiveLength }

/-- A call that counts units is a number, whatever is counted. -/
private theorem number_call_lengthFunction (o : Overlay) (operand : Nat) (e : Expr) :
    number operand (.call o.lengthFunction [e]) = .ok (.call o.lengthFunction [e]) := by
  have hinteger : (Expr.call o.lengthFunction [e]).dataType = .integer := by
    unfold lengthFunction
    split <;> rfl
  exact number_eq_ok_iff.2 ⟨.inr (by rw [hinteger]; rfl), rfl⟩

/-- The effective length of an overlay that was built needs no type. -/
private theorem number_effectiveLength (h : ofOperands source replacement start length = .ok o) :
    number 3 o.effectiveLength = .ok o.effectiveLength := by
  obtain ⟨-, -, hlength⟩ := ofOperands_eq_ok_iff.1 h
  have hagain := optionalNumber_again hlength
  unfold effectiveLength
  cases hn : o.length with
  | none => exact number_call_lengthFunction o 3 o.replacement
  | some n =>
    rw [hn] at hagain
    obtain ⟨n', hn', hsome⟩ := Except.map_eq_ok_iff.1 hagain
    cases hsome
    exact hn'

/-- An overlay that was built takes its effective length as it is, beside its other operands. -/
private theorem setOperand_effectiveLength
    (h : ofOperands source replacement start length = .ok o) :
    o.setOperand 3 (some o.effectiveLength) = .ok o.explicit := by
  obtain ⟨hstrings, hstart, -⟩ := ofOperands_eq_ok_iff.1 h
  have hlength : optionalNumber 3 (some o.effectiveLength) = .ok (some o.effectiveLength) :=
    Except.map_eq_ok_iff.2 ⟨_, number_effectiveLength h, rfl⟩
  rw [setOperand, ofOperands_eq_ok_iff]
  exact ⟨strings_again hstrings, number_again hstart, hlength⟩

/-- The strings alone decide which functions a rewrite is made of. -/
private theorem rewrite_explicit (o : Overlay) (s : Support) :
    o.explicit.rewrite s = o.rewrite s := by
  cases s with
  | native | alternate | emulated => rfl

private theorem exists_rewrite {s : Support} (hs : s ≠ .native) (o : Overlay) :
    ∃ e, o.rewrite s = some e := by
  cases s with
  | native => exact absurd rfl hs
  | alternate | emulated => exact ⟨_, rfl⟩

/-- An overlay without a length takes the default length for its length, whatever its operands are,
    and nothing but the length changes. Both overlays have the same rewrite. On a dialect that lacks
    overlays they are rendered alike, at a visit of any renderer and as whole expressions under any
    settings, where both fail if one does. -/
theorem rewrite_with_defaultLength (h : ofOperands source replacement start none = .ok o) :
    o.toExpr.withOperand 3 (some o.effectiveLength) = .ok o.explicit.toExpr ∧
      (∀ s, o.explicit.rewrite s = o.rewrite s) ∧
      ∀ d, d.support .overlay ≠ .native →
        (∀ r : Renderer, r.dialect = d →
          Renderer.visit o.explicit.toExpr r = Renderer.visit o.toExpr r) ∧
        ∀ s, o.explicit.toExpr.render d s = o.toExpr.render d s := by
  refine ⟨?_, rewrite_explicit o, fun d hd => ?_⟩
  · rw [withOperand_toExpr o (by decide), setOperand_effectiveLength h]
    rfl
  · obtain ⟨e, he⟩ := exists_rewrite hd o
    have hrewrite : o.toExpr.rewrite d = some e := he
    have hexplicit : o.explicit.toExpr.rewrite d = some e := (rewrite_explicit o _).trans he
    constructor
    · rintro r rfl
      exact Expr.visit_eq_of_rewrite hexplicit hrewrite
    · exact Expr.render_eq_of_rewrite hexplicit hrewrite

/-- A `NULL` spliced with an overlay of bytes has the type of that overlay, so its default length
    counts bytes. With this length written down, SQLite gets the same text, and a depth limit is
    reached by both. -/
theorem rewrite_with_defaultLength_of_null :
    let inner : Overlay := ⟨.column ⟨none, "payload", .blob⟩, .null .blob, .bind (.int 2), none⟩
    let o : Overlay := ⟨.null .blob, inner.toExpr, .column ⟨none, "p", .unknown⟩, none⟩
    ofOperands (some (.null .unknown)) (some inner.toExpr) (some o.start) none = .ok o ∧
      o.effectiveLength = .call .octetLength [inner.toExpr] ∧
      o.toExpr.withOperand 3 (some o.effectiveLength) = .ok o.explicit.toExpr ∧
      o.explicit.toExpr.render .sqlite = o.toExpr.render .sqlite ∧
      o.explicit.toExpr.render .mysql { maxDepth := some 3 } =
        o.toExpr.render .mysql { maxDepth := some 3 } := by
  intro inner o
  have hbuilt : ofOperands (some (.null .unknown)) (some inner.toExpr) (some o.start) none =
      .ok o := rfl
  obtain ⟨htaken, -, hrendered⟩ := rewrite_with_defaultLength hbuilt
  exact ⟨hbuilt, rfl, htaken, (hrendered .sqlite (by decide)).2 {},
    (hrendered .mysql (by decide)).2 { maxDepth := some 3 }⟩

end Overlay

end SqlExpr
