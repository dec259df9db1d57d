-- SUMMARY: Written out or bound, values make no other difference to a rendering.
import SqlExpr.Proofs.Render.Fragments
import SqlExpr.Proofs.Render.Nesting

/-!
# Styles of parameters

The style of parameters has no part in which writes are made and in whether the depth limit is
reached. A rendering that writes its values out is the rendering that binds them, with the literal
of each parameter in the place of its placeholder (`Expr.render_inline_eq`).
-/

namespace SqlExpr.Expr

variable {d : Dialect} {s t : Settings} {err : RenderError}

/-- Under one depth limit, renderings fail alike. -/
theorem render_eq_error_congr (h : s.maxDepth = t.maxDepth) (e : Expr) :
    e.render d s = .error err ↔ e.render d t = .error err := by
  have hnests := Renderer.nests_nested_renderInto d e
  rw [render_eq_error_iff_visit, render_eq_error_iff_visit, exists_error_of_nests hnests,
    exists_error_of_nests hnests, h]

theorem render_eq_ok_congr (h : s.maxDepth = t.maxDepth) {e : Expr} {out : Rendered}
    (hout : e.render d s = .ok out) : e.render d t = .ok (e.rendered d t) := by
  cases hrender : e.render d t with
  | ok out' => rw [eq_rendered_of_render hrender]
  | error err =>
    rw [← render_eq_error_congr h, hout] at hrender
    cases hrender

/-- The text of a rendering is that of its fragments, and its parameters are what its writes bind. -/
theorem rendered_eq_fragments (e : Expr) (d : Dialect) (s : Settings) :
    e.rendered d s = ⟨String.join ((s.fragments d 0 (e.writes d)).map (·.text)),
      ((e.writes d).filterMap s.binds).toArray⟩ := by
  rw [rendered, Renderer.takeUp_eq_append]
  simp [Renderer.append, Renderer.rendered]

/-- A style that binds values and the inline style let through the same expressions and fail alike on
    the others. The fragments of a rendering that binds its values make up its text, its placeholders
    stand for its parameters one by one, and with the literals of the parameters in the place of the
    placeholders these are the fragments of the rendering that writes its values out: every other
    fragment is the same. That rendering binds nothing. -/
theorem render_inline_eq (e : Expr) (d : Dialect) (s : Settings) (style : ParamStyle) :
    let inline : Settings := { s with paramStyle := .inline }
    let binding : Settings := { s with paramStyle := style }
    let fs := binding.fragments d 0 (e.writes d)
    (∀ err, e.render d inline = .error err ↔ e.render d binding = .error err) ∧
    ∀ out, e.render d binding = .ok out →
      let literals := out.params.toList.map (·.literal d)
      out.sql = String.join (fs.map (·.text)) ∧
      (fs.filter (·.isPlaceholder binding)).map (·.write.constant?.map (·.value)) =
        out.params.toList.map some ∧
      inline.fragments d 0 (e.writes d) = Fragment.relabel binding fs literals ∧
      e.render d inline =
        .ok ⟨String.join ((Fragment.relabel binding fs literals).map (·.text)), #[]⟩ := by
  intro inline binding fs
  have hlimit : inline.maxDepth = binding.maxDepth := rfl
  refine ⟨fun err => render_eq_error_congr hlimit e, fun out hout => ?_⟩
  have hbound : out.params.toList = (e.writes d).filterMap binding.binds := by
    rw [eq_rendered_of_render hout, rendered_eq_fragments]
  intro literals
  have hinline : inline.fragments d 0 (e.writes d) = Fragment.relabel binding fs literals := by
    simp only [literals, hbound]
    exact (Settings.relabel_literals (s := binding) 0 0 (e.writes d)).symm
  refine ⟨?_, ?_, hinline, ?_⟩
  · rw [eq_rendered_of_render hout, rendered_eq_fragments]
  · have hplaced := congrArg (List.map Prod.fst)
      (Settings.placeholders_fragments (s := binding) (d := d) 0 (e.writes d))
    rw [List.map_map, List.map_fst_zip (by simp [Fragment.numbered])] at hplaced
    rw [hbound, ← hplaced]
    rfl
  · have hnothing : (e.writes d).filterMap inline.binds = [] :=
      List.filterMap_eq_nil_iff.2 fun w _ => Settings.binds_of_inline rfl w
    rw [render_eq_ok_congr hlimit.symm hout, rendered_eq_fragments, hinline, hnothing]

/-- MySQL takes the replacement twice, behind the start. -/
theorem render_inline_eq_insert :
    let e : Expr := .overlay (.bind (.text "it's")) (.bind (.text "?")) (.bind (.int (-2))) none
    e.render .mysql = .ok ⟨"INSERT(?, ?, CHAR_LENGTH(?), ?)",
      #[.text "it's", .int (-2), .text "?", .text "?"]⟩ ∧
    e.render .mysql { paramStyle := .inline } =
      .ok ⟨"INSERT('it''s', -2, CHAR_LENGTH('?'), '?')", #[]⟩ := by
  intro e
  have hwrites : e.writes .mysql =
      [.functionName .insert, .sql "(", .value (.bind (.text "it's")), .sql ", ",
        .value (.bind (.int (-2))), .sql ", ", .functionName .charLength, .sql "(",
        .value (.bind (.text "?")), .sql ")", .sql ", ", .value (.bind (.text "?")), .sql ")"] := by
    have hrewrite : e.rewrite .mysql = some (.call .insert [.bind (.text "it's"),
        .bind (.int (-2)), .call .charLength [.bind (.text "?")], .bind (.text "?")]) := rfl
    rw [writes_of_rewrite hrewrite, writes_call_function rfl]
    simp [writes_call_function (d := .mysql) (f := .charLength) rfl, bind, writes_constant,
      List.intercalate]
  have hbinding : e.render .mysql = .ok ⟨"INSERT(?, ?, CHAR_LENGTH(?), ?)",
      #[.text "it's", .int (-2), .text "?", .text "?"]⟩ := by
    rw [render_of_unlimited rfl, rendered_eq_fragments, hwrites]
    exact congrArg Except.ok (by decide +kernel)
  obtain ⟨-, -, -, hinline⟩ := (render_inline_eq e .mysql {} .dialect).2 _ hbinding
  refine ⟨hbinding, hinline.trans ?_⟩
  rw [hwrites]
  exact congrArg Except.ok (by decide +kernel)

end SqlExpr.Expr
