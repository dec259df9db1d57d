-- SUMMARY: A rendering into any sink: the writes of the expression, up to the first that fails.
import SqlExpr.Proofs.Render.Writes
import SqlExpr.Render.Renderer

/-!
# Renderings into any sink

A sink that renders what it visits back into itself sees no more of a rendering than the writes of
the expression, one after the other. The first write that fails is the last one that is made, and
its failure is that of the rendering (`Expr.renderInto_eq_writes`).
-/

namespace SqlExpr

namespace Sink

variable {ε σ : Type} {sink : Sink ε σ}

/-- The sink takes the writes one after the other, from the state `s` to the state `s'`. -/
inductive Takes (sink : Sink ε σ) : List Write → σ → σ → Prop
  | nil (s : σ) : Takes sink [] s s
  | cons {w : Write} {ws : List Write} {s t s' : σ} (hw : sink.write w s = .ok () t)
      (hws : Takes sink ws t s') : Takes sink (w :: ws) s s'

/-- The sink takes some of the writes and fails on the next one. The rest does not reach it. -/
def FailsOn (sink : Sink ε σ) (ws : List Write) (s : σ) (err : ε) (s' : σ) : Prop :=
  ∃ taken w rest t, ws = taken ++ w :: rest ∧ sink.Takes taken s t ∧ sink.write w t = .error err s'

/-- What is visited is rendered back into the sink. -/
def RendersBack (sink : Sink ε σ) : Prop :=
  ∀ e, sink.visit e (e.renderInto sink) = e.renderInto sink

/-! ## Writes in order -/

theorem takes_nil {s s' : σ} : sink.Takes [] s s' ↔ s' = s := by
  constructor
  · intro h
    cases h
    rfl
  · rintro rfl
    exact .nil _

theorem takes_cons {w : Write} {ws : List Write} {s s' : σ} :
    sink.Takes (w :: ws) s s' ↔ ∃ t, sink.write w s = .ok () t ∧ sink.Takes ws t s' := by
  constructor
  · intro h
    cases h with
    | cons hw hws => exact ⟨_, hw, hws⟩
  · rintro ⟨t, hw, hws⟩
    exact .cons hw hws

theorem not_failsOn_nil {s s' : σ} {err : ε} : ¬ sink.FailsOn [] s err s' := by
  rintro ⟨taken, w, rest, t, h, -⟩
  exact List.append_ne_nil_of_right_ne_nil taken (List.cons_ne_nil w rest) h.symm

theorem failsOn_cons {w : Write} {ws : List Write} {s s' : σ} {err : ε} :
    sink.FailsOn (w :: ws) s err s' ↔
      sink.write w s = .error err s' ∨
        ∃ t, sink.write w s = .ok () t ∧ sink.FailsOn ws t err s' := by
  constructor
  · rintro ⟨taken, w', rest, t, hsplit, htaken, hfail⟩
    cases htaken with
    | nil =>
      cases hsplit
      exact .inl hfail
    | cons hw htaken =>
      cases hsplit
      exact .inr ⟨_, hw, _, _, _, _, rfl, htaken, hfail⟩
  · rintro (hfail | ⟨t, hw, taken, w', rest, t', rfl, htaken, hfail⟩)
    · exact ⟨[], w, ws, s, rfl, .nil s, hfail⟩
    · exact ⟨w :: taken, w', rest, t', rfl, .cons hw htaken, hfail⟩

theorem inOrder_writes_eq_ok_iff {ws : List Write} {s s' : σ} :
    inOrder (ws.map sink.write) s = .ok () s' ↔ sink.Takes ws s s' := by
  induction ws generalizing s with
  | nil =>
    rw [takes_nil]
    change EStateM.Result.ok () s = _ ↔ _
    simp [eq_comm]
  | cons w ws ih =>
    rw [takes_cons]
    cases hw : sink.write w s with
    | ok _ t => simp [inOrder, bind, EStateM.bind, hw, ih]
    | error err t => simp [inOrder, bind, EStateM.bind, hw]

theorem inOrder_writes_eq_error_iff {ws : List Write} {s s' : σ} {err : ε} :
    inOrder (ws.map sink.write) s = .error err s' ↔ sink.FailsOn ws s err s' := by
  induction ws generalizing s with
  | nil => exact iff_of_false nofun not_failsOn_nil
  | cons w ws ih =>
    rw [failsOn_cons]
    cases hw : sink.write w s with
    | ok _ t => simp [inOrder, bind, EStateM.bind, hw, ih]
    | error err t => simp [inOrder, bind, EStateM.bind, hw]

theorem inOrder_append (xs ys : List (EStateM ε σ Unit)) :
    inOrder (xs ++ ys) = (do inOrder xs; inOrder ys) := by
  induction xs with
  | nil => rfl
  | cons x xs ih => simp only [List.cons_append, inOrder, ih, bind_assoc]

/-! ## Expressions as writes -/

/-- Pieces come down to their writes if the expressions among them do. -/
private theorem inOrder_pieces (hback : sink.RendersBack) {pieces : List Piece}
    (h : ∀ e, .visit e ∈ pieces →
      e.renderInto sink = inOrder ((e.writes sink.dialect).map sink.write)) :
    inOrder (pieces.map sink.renderPiece) =
      inOrder ((pieces.flatMap (Piece.writes sink.dialect)).map sink.write) := by
  induction pieces with
  | nil => rfl
  | cons piece pieces ih =>
    have hpiece : sink.renderPiece piece =
        inOrder ((piece.writes sink.dialect).map sink.write) := by
      cases piece with
      | write w => exact (bind_pure_unit (x := sink.write w)).symm
      | visit e => exact (hback e).trans (h e List.mem_cons_self)
    rw [List.flatMap_cons, List.map_append, inOrder_append, List.map_cons, inOrder, hpiece,
      ih fun e he => h e (List.mem_cons_of_mem _ he)]

theorem renderInto_eq_inOrder (hback : sink.RendersBack) (e : Expr) :
    e.renderInto sink = inOrder ((e.writes sink.dialect).map sink.write) := by
  induction e using Expr.visit_induction sink.dialect with
  | node e ih =>
    rw [Expr.renderInto_eq, Expr.writes_eq]
    exact inOrder_pieces hback ih

end Sink

/-! ## Limited text -/

namespace Renderer

private theorem utf8ByteSize_le_takeUp (r : Renderer) (ws : List Write) :
    r.sql.utf8ByteSize ≤ (r.takeUp ws).sql.utf8ByteSize := by
  induction ws generalizing r with
  | nil => exact Nat.le_refl _
  | cons w ws ih =>
    have hw : r.sql.utf8ByteSize ≤ (r.write w).sql.utf8ByteSize := by
      rw [write, String.utf8ByteSize_append]
      exact Nat.le_add_right _ _
    exact Nat.le_trans hw (ih (r.write w))

variable {d : Dialect} {limit : Nat}

/-- The text of a renderer only grows, so writes are taken exactly if all of their text is within
    the limit. -/
private theorem takes_limitedSink {r r' : Renderer} {ws : List Write}
    (hr : r.sql.utf8ByteSize ≤ limit) :
    (limitedSink d limit).Takes ws r r' ↔
      r' = r.takeUp ws ∧ (r.takeUp ws).sql.utf8ByteSize ≤ limit := by
  induction ws generalizing r with
  | nil =>
    rw [Sink.takes_nil]
    exact (and_iff_left hr).symm
  | cons w ws ih =>
    rw [Sink.takes_cons, takeUp_cons]
    by_cases hw : (r.write w).sql.utf8ByteSize ≤ limit
    · have hwrite : (limitedSink d limit).write w r = .ok () (r.write w) := if_pos hw
      rw [← ih hw, hwrite]
      simp
    · have hwrite : (limitedSink d limit).write w r = .error .format (r.write w) := if_neg hw
      rw [hwrite]
      refine iff_of_false (fun ⟨_, h, _⟩ => nomatch h) ?_
      rintro ⟨-, h⟩
      exact hw (Nat.le_trans (utf8ByteSize_le_takeUp _ ws) h)

private theorem format_of_failsOn_limitedSink {r r' : Renderer} {ws : List Write}
    {err : RenderError} (h : (limitedSink d limit).FailsOn ws r err r') : err = .format := by
  obtain ⟨-, w, -, t, -, -, hfail⟩ := h
  simp only [limitedSink] at hfail
  split at hfail
  · cases hfail
  · cases hfail
    rfl

end Renderer

namespace Expr

/-- A limited rendering is the unlimited one if all of its text is within the limit. -/
theorem renderWithin_eq (limit : Nat) (e : Expr) (d : Dialect) (s : Settings) :
    e.renderWithin limit d s =
      if (e.rendered d s).sql.utf8ByteSize ≤ limit then .ok (e.rendered d s)
      else .error .format := by
  have hempty : ({ dialect := d, settings := s } : Renderer).sql.utf8ByteSize ≤ limit :=
    Nat.zero_le limit
  have hinOrder : e.renderInto (Renderer.limitedSink d limit) =
      Sink.inOrder ((e.writes d).map (Renderer.limitedSink d limit).write) :=
    Sink.renderInto_eq_inOrder (fun _ => rfl) e
  unfold renderWithin
  split
  case h_1 r hrun =>
    rw [hinOrder, Sink.inOrder_writes_eq_ok_iff, Renderer.takes_limitedSink hempty] at hrun
    obtain ⟨rfl, hwithin⟩ := hrun
    exact (if_pos hwithin).symm
  case h_2 err r hrun =>
    have hwithin : ¬ (e.rendered d s).sql.utf8ByteSize ≤ limit := by
      intro hwithin
      have htakes := (@Renderer.takes_limitedSink d limit _ _ (e.writes d) hempty).2 ⟨rfl, hwithin⟩
      have hok := (congrFun hinOrder _).trans (Sink.inOrder_writes_eq_ok_iff.2 htakes)
      cases hrun.symm.trans hok
    rw [if_neg hwithin]
    rw [hinOrder, Sink.inOrder_writes_eq_error_iff] at hrun
    rw [Renderer.format_of_failsOn_limitedSink hrun]

/-- Rendering an expression into a sink hands it the writes of the expression in order, whatever the
    sink does with them. If the sink takes all of them, the rendering succeeds. If it fails on one,
    that is the last it is handed, and the rendering fails just so. In particular a rendering to a
    limited number of bytes succeeds, with the same outcome, exactly if the text of the rendering
    without any limit is no longer. -/
theorem renderInto_eq_writes (e : Expr) (d : Dialect) :
    (∀ (ε σ : Type) (sink : Sink ε σ), sink.dialect = d → sink.RendersBack → ∀ s s',
      (e.renderInto sink s = .ok () s' ↔ sink.Takes (e.writes d) s s') ∧
      (∀ err, e.renderInto sink s = .error err s' ↔ sink.FailsOn (e.writes d) s err s')) ∧
    (∀ limit settings, ∃ unlimited,
      e.render d { settings with maxDepth := none } = .ok unlimited ∧
      e.renderWithin limit d settings =
        if unlimited.sql.utf8ByteSize ≤ limit then .ok unlimited else .error .format) := by
  constructor
  · rintro ε σ sink rfl hback s s'
    rw [Sink.renderInto_eq_inOrder hback]
    exact ⟨Sink.inOrder_writes_eq_ok_iff, fun err => Sink.inOrder_writes_eq_error_iff⟩
  · intro limit settings
    refine ⟨e.rendered d settings, ?_, renderWithin_eq limit e d settings⟩
    rw [render_of_unlimited rfl, rendered_maxDepth]

/-- A sink that lists the writes and does not take one of the columns. Rendering a row comparison
    into it ends in the middle of the rewrite, where the column is reached. -/
theorem renderInto_eq_writes_up_to_column :
    let column (name : String) : Column := ⟨none, name, .integer⟩
    let e : Expr := .rowCompare .eq [.column (column "a"), .column (column "b")]
      [.column (column "c"), .column (column "d")]
    let sink : Sink String (List Write) :=
      { dialect := .derby
        write := fun w log =>
          if w = .identifier (column "c") then .error "no column c" log else .ok () (log ++ [w])
        visit := fun _ body => body }
    e.renderInto sink [] = .error "no column c"
      [.sql "(", .identifier (column "a"), .sql " ", .sql "=", .sql " "] := by
  intro column e sink
  have hwrites : e.writes .derby =
      [.sql "(", .identifier (column "a"), .sql " ", .sql "=", .sql " "] ++
        .identifier (column "c") ::
          [.sql " ", .keyword .and, .sql " ", .identifier (column "b"), .sql " ", .sql "=",
            .sql " ", .identifier (column "d"), .sql ")"] := by
    have hrewrite : e.rewrite .derby = some (.and
        (.compare .eq (.column (column "a")) (.column (column "c")))
        (.compare .eq (.column (column "b")) (.column (column "d")))) := rfl
    rw [writes_eq, pieces, hrewrite]
    simp [Piece.writes, writes_eq, pieces, rewrite, nativePieces, Piece.visits, and, chain,
      Piece.sql, Piece.keyword, List.intercalate, Connective.keyword, Comparator.symbol]
  refine (((renderInto_eq_writes e .derby).1 String _ sink rfl (fun _ => rfl) [] _).2 _).2 ?_
  refine ⟨_, _, _, _, hwrites, ?_, rfl⟩
  exact Sink.inOrder_writes_eq_ok_iff.1 rfl

end Expr

end SqlExpr
