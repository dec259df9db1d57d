-- SUMMARY: A rendering takes up the writes of its expression in order, or fails at the depth limit.
import SqlExpr.Render.Renderer
import SqlExpr.Render.Walk

/-!
# Renderings as writes

`Emits x ws` says that running `x` takes up exactly the writes `ws`, from any renderer; only
a depth limit can make it fail. It composes along the pieces of a node, so that rendering an
expression takes up `Expr.writes` (`Renderer.emits_renderInto`).
-/

namespace SqlExpr

/-- The inline style binds nothing. -/
theorem Settings.binds_of_inline {s : Settings} (h : s.paramStyle = .inline) (w : Write) :
    s.binds w = none := by
  cases w <;> simp [binds, writesOut, h]

namespace Renderer

/-- Take up writes in order. -/
def takeUp (r : Renderer) (ws : List Write) : Renderer := ws.foldl write r

@[simp] theorem takeUp_nil (r : Renderer) : r.takeUp [] = r := rfl

@[simp] theorem takeUp_cons (r : Renderer) (w : Write) (ws : List Write) :
    r.takeUp (w :: ws) = (r.write w).takeUp ws := rfl

theorem takeUp_append (r : Renderer) (ws us : List Write) :
    r.takeUp (ws ++ us) = (r.takeUp ws).takeUp us := List.foldl_append

/-- Only text and parameters change. -/
theorem takeUp_frame (r : Renderer) (ws : List Write) :
    (r.takeUp ws).dialect = r.dialect ∧ (r.takeUp ws).settings = r.settings ∧
      (r.takeUp ws).depth = r.depth := by
  induction ws generalizing r with
  | nil => exact ⟨rfl, rfl, rfl⟩
  | cons w ws ih => exact ih (r.write w)

/-- The depth does not matter to what is written. -/
theorem takeUp_depth (r : Renderer) (n : Nat) (ws : List Write) :
    { r with depth := n }.takeUp ws = { r.takeUp ws with depth := n } := by
  induction ws generalizing r with
  | nil => rfl
  | cons w ws ih => exact ih (r.write w)

/-- Neither does the depth limit. -/
private theorem takeUp_maxDepth (r : Renderer) (limit : Option UInt64) (ws : List Write) :
    { r with settings := { r.settings with maxDepth := limit } }.takeUp ws =
      { r.takeUp ws with settings := { r.settings with maxDepth := limit } } := by
  induction ws generalizing r with
  | nil => rfl
  | cons w ws ih => exact ih (r.write w)

/-- If nothing is bound, the text is that of the writes one after the other. -/
theorem sql_takeUp {r : Renderer} {ws : List Write} (h : ∀ w ∈ ws, r.settings.binds w = none) :
    (r.takeUp ws).sql.toList =
      r.sql.toList ++ ws.flatMap fun w => (r.settings.text r.dialect 0 w).toList := by
  induction ws generalizing r with
  | nil => simp
  | cons w ws ih =>
    have hw : r.settings.text r.dialect r.params.size w = r.settings.text r.dialect 0 w := by
      cases w with
      | value c =>
        have hout : r.settings.writesOut c = true := by
          simpa [Settings.binds] using h (.value c) List.mem_cons_self
        simp [Settings.text, hout]
      | _ => rfl
    have ih := @ih (r.write w) fun u hu => h u (List.mem_cons_of_mem _ hu)
    rw [takeUp_cons, ih]
    simp [Renderer.write, hw]

/-! ## Computations -/

/-- Running `x` takes up the writes `ws`, or fails. It can fail only if the depth is limited. -/
def Emits (x : EStateM RenderError Renderer Unit) (ws : List Write) : Prop :=
  ∀ r, x r = .ok () (r.takeUp ws) ∨
    r.settings.maxDepth ≠ none ∧ ∃ err r', x r = .error err r'

theorem Emits.of_ok {x : EStateM RenderError Renderer Unit} {ws : List Write} (h : Emits x ws)
    {r r' : Renderer} (hok : x r = .ok () r') : r' = r.takeUp ws := by
  rcases h r with hr | ⟨-, err, r'', hr⟩
  · cases hok.symm.trans hr
    rfl
  · cases hok.symm.trans hr

theorem Emits.of_unlimited {x : EStateM RenderError Renderer Unit} {ws : List Write}
    (h : Emits x ws) {r : Renderer} (hr : r.settings.maxDepth = none) :
    x r = .ok () (r.takeUp ws) :=
  (h r).resolve_right fun hlimit => hlimit.1 hr

theorem Emits.seq {x y : EStateM RenderError Renderer Unit} {ws us : List Write}
    (hx : Emits x ws) (hy : Emits y us) : Emits (do x; y) (ws ++ us) := by
  intro r
  rcases hx r with hok | ⟨hlimit, err, r', herr⟩
  · have hrun : (do x; y : EStateM RenderError Renderer Unit) r = y (r.takeUp ws) := by
      simp only [bind, EStateM.bind, hok]
    rw [hrun, takeUp_append]
    rcases hy (r.takeUp ws) with hok' | ⟨hlimit, hfail⟩
    · exact .inl hok'
    · rw [(takeUp_frame r ws).2.1] at hlimit
      exact .inr ⟨hlimit, hfail⟩
  · refine .inr ⟨hlimit, err, r', ?_⟩
    simp only [bind, EStateM.bind, herr]

theorem Emits.nested {x : EStateM RenderError Renderer Unit} {ws : List Write} (h : Emits x ws) :
    Emits (nested x) ws := by
  intro r
  unfold Renderer.nested
  cases hreached : r.reachedLimit? with
  | some limit =>
    refine .inr ⟨?_, _, _, rfl⟩
    rintro hnone
    simp [reachedLimit?, hnone] at hreached
  | none =>
    rcases h { r with depth := r.depth + 1 } with hok | ⟨hlimit, err, r', herr⟩
    · left
      simp only [hok, takeUp_depth, Nat.add_sub_cancel]
      rw [← (takeUp_frame r ws).2.2]
    · exact .inr ⟨hlimit, err, _, by simp only [herr]; rfl⟩

private theorem emits_inOrder (d : Dialect) {pieces : List Piece}
    (h : ∀ e, .visit e ∈ pieces → Emits (e.renderInto (sink d)) (e.writes d)) :
    Emits (Sink.inOrder (pieces.map (sink d).renderPiece)) (pieces.flatMap (Piece.writes d)) := by
  induction pieces with
  | nil => exact fun r => .inl rfl
  | cons piece pieces ih =>
    refine Emits.seq ?_ (ih fun e he => h e (List.mem_cons_of_mem _ he))
    cases piece with
    | write w => exact fun r => .inl rfl
    | visit e => exact (h e List.mem_cons_self).nested

/-! ## Expressions -/

/-- Rendering an expression takes up its writes. -/
theorem emits_renderInto (d : Dialect) (e : Expr) :
    Emits (e.renderInto (sink d)) (e.writes d) := by
  induction e using Expr.visit_induction d with
  | node e ih =>
    rw [Expr.renderInto_eq, Expr.writes_eq]
    exact emits_inOrder d ih

/-- So does a visit, which counts as one level of nesting. -/
private theorem eq_takeUp_of_visit {e : Expr} {r r' : Renderer} (h : visit e r = .ok () r') :
    r' = r.takeUp (e.writes r.dialect) :=
  (emits_renderInto r.dialect e).nested.of_ok h

theorem visit_of_unlimited {r : Renderer} (h : r.settings.maxDepth = none) (e : Expr) :
    visit e r = .ok () (r.takeUp (e.writes r.dialect)) :=
  (emits_renderInto r.dialect e).nested.of_unlimited h

end Renderer

namespace Expr

variable {e : Expr} {d : Dialect} {s : Settings}

/-- A fresh renderer that has taken up the writes of the expression. -/
def rendered (e : Expr) (d : Dialect) (s : Settings) : Rendered :=
  (Renderer.takeUp { dialect := d, settings := s } (e.writes d)).rendered

theorem rendered_maxDepth (limit : Option UInt64) :
    e.rendered d { s with maxDepth := limit } = e.rendered d s := by
  have h := Renderer.takeUp_maxDepth { dialect := d, settings := s } limit (e.writes d)
  exact (congrArg Renderer.rendered h).trans rfl

theorem eq_rendered_of_render {out : Rendered} (h : e.render d s = .ok out) :
    out = e.rendered d s := by
  unfold render at h
  split at h
  · rename_i r hvisit
    cases h
    rw [Renderer.eq_takeUp_of_visit hvisit]
    rfl
  · cases h

theorem render_of_unlimited (h : s.maxDepth = none) : e.render d s = .ok (e.rendered d s) := by
  unfold render
  rw [Renderer.visit_of_unlimited h]
  rfl

end Expr

end SqlExpr
