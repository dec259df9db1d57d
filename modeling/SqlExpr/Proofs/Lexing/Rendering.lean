-- SUMMARY: A rendering is cut into the lexemes of its writes.
import SqlExpr.Proofs.Lexing.Spacing
import SqlExpr.Proofs.Lowering.Constants
import SqlExpr.Proofs.Render.Writes

/-!
# Lexing a rendering

Values and names stay inside of their tokens, and no two tokens fuse: a lexer that knows nothing of
expressions cuts the text of a rendering into the lexemes of its writes (`Expr.lex_render`).
-/

namespace SqlExpr

variable {s : Settings} {d : Dialect}

open Lexer

/-- Writes that are kept apart are cut one by one. -/
private theorem lexes_writes (hstyle : s.paramStyle = .inline) (hquote : s.quoteIdentifiers = true)
    {ws : List Write} (hlexical : ∀ w ∈ ws, w.Lexical) (hapart : ws.IsChain Write.Apart) :
    Lexes d.identifierQuote (ws.flatMap fun w => (s.text d 0 w).toList)
      (ws.flatMap (Write.lexemes s d)) := by
  induction ws with
  | nil =>
    intro rest _
    simp
  | cons w ws ih =>
    obtain ⟨hnext, htail⟩ := List.isChain_cons.1 hapart
    have ih := ih (fun u hu => hlexical u (List.mem_cons_of_mem _ hu)) htail
    rw [List.flatMap_cons, List.flatMap_cons]
    by_cases hgap : w.isGap = true
    · exact (Write.lexesAnywhere_text hgap).append_lexes ih
    · have hw : Lexes d.identifierQuote (s.text d 0 w).toList (w.lexemes s d) :=
        Write.lexes_text hstyle hquote (hlexical w List.mem_cons_self)
      refine hw.append ?_ ih
      -- What follows is a gap, or nothing.
      intro rest hrest
      cases ws with
      | nil => exact hrest
      | cons u ws =>
        rw [List.flatMap_cons, List.append_assoc]
        exact Write.separates_text ((hnext u rfl).resolve_left hgap) _

namespace Expr

private theorem lexical_of_mem_writes {e : Expr}
    (hfloat : ∀ c ∈ e.constants, ∀ x, c.value ≠ .float x) :
    ∀ w ∈ e.writes d, w.Lexical := by
  intro w hw
  cases w with
  | sql text => exact lexical_of_sql_mem_writes hw
  | value c =>
    refine constants_of_lower d (Q := fun c => ∀ x, c.value ≠ .float x) ?_ hfloat c ?_
    · simp [Constant.literal]
    · rw [← constants_writes]
      exact List.mem_filterMap.2 ⟨_, hw, rfl⟩
  | _ => trivial

/-- Where values are written out and names are quoted, a tree without floating point numbers renders
    to text that the lexer cuts into the lexemes of its writes: every value and every name is one
    token that reads back as what was written, the minus of a negative number apart, and there is
    no token besides those of keywords, function names and symbols. -/
theorem lex_render (e : Expr) (d : Dialect) (hfloat : ∀ c ∈ e.constants, ∀ x, c.value ≠ .float x)
    (hstyle : s.paramStyle = .inline) (hquote : s.quoteIdentifiers = true)
    (hdepth : s.maxDepth = none) :
    ∃ out, e.render d s = .ok out ∧
      out.sql.toList = (e.writes d).flatMap (fun w => (s.text d 0 w).toList) ∧
      lex d.identifierQuote out.sql.toList = some ((e.writes d).flatMap (Write.lexemes s d)) := by
  have htext : (e.rendered d s).sql.toList =
      (e.writes d).flatMap fun w => (s.text d 0 w).toList :=
    Renderer.sql_takeUp fun w _ => Settings.binds_of_inline hstyle w
  refine ⟨e.rendered d s, render_of_unlimited hdepth, htext, ?_⟩
  have hlexes : Lexes d.identifierQuote ((e.writes d).flatMap fun w => (s.text d 0 w).toList)
      ((e.writes d).flatMap (Write.lexemes s d)) :=
    lexes_writes hstyle hquote (lexical_of_mem_writes hfloat) (isChain_writes d e)
  have hend := hlexes [] (by simp [Separates])
  rw [htext]
  simpa [lex] using hend

/-- A name with a quote in it behind an empty one, a quote, a comment and a backslash in a text, and
    a negative number behind a minus. -/
theorem lex_render_insert :
    let e : Expr := .overlay (.column ⟨some "", "a\x60b", .unknown⟩) (.bind (.text "'--\\"))
      (.arith .sub (.bind (.int 1)) (.bind (.int (-2)))) none
    ∃ out, e.render .mysql { paramStyle := .inline, quoteIdentifiers := true } = .ok out ∧
      out.sql =
        "INSERT(\x60\x60.\x60a\x60\x60b\x60, (1 - -2), CHAR_LENGTH('''--\\'), '''--\\')" ∧
      lex '\x60' out.sql.toList = some [.word "INSERT", .symbol "(", .name "", .symbol ".",
        .name "a\x60b", .symbol ",", .symbol "(", .number 1, .symbol "-", .symbol "-", .number 2,
        .symbol ")", .symbol ",", .word "CHAR_LENGTH", .symbol "(", .text "'--\\", .symbol ")",
        .symbol ",", .text "'--\\", .symbol ")"] := by
  intro e
  have hwrites : e.writes .mysql =
      [.functionName .insert, .sql "(", .identifier ⟨some "", "a\x60b", .unknown⟩, .sql ", ",
        .sql "(", .value (.bind (.int 1)), .sql " ", .sql "-", .sql " ", .value (.bind (.int (-2))),
        .sql ")", .sql ", ", .functionName .charLength, .sql "(", .value (.bind (.text "'--\\")),
        .sql ")", .sql ", ", .value (.bind (.text "'--\\")), .sql ")"] := by
    have hrewrite : e.rewrite .mysql = some (.call .insert
        [.column ⟨some "", "a\x60b", .unknown⟩, .arith .sub (.bind (.int 1)) (.bind (.int (-2))),
          .call .charLength [.bind (.text "'--\\")], .bind (.text "'--\\")]) := rfl
    rw [writes_of_rewrite hrewrite, writes_call_function rfl]
    simp [writes_call_function (d := .mysql) (f := .charLength) rfl, bind, writes_constant,
      writes_column, writes_arith, ArithOp.symbol, List.intercalate]
  have hfloat : ∀ c ∈ e.constants, ∀ x, c.value ≠ .float x := by
    have hconstants : e.constants =
        [.bind (.text "'--\\"), .bind (.int 1), .bind (.int (-2))] := rfl
    simp [hconstants, Constant.bind]
  obtain ⟨out, hout, htext, hlex⟩ := @lex_render
    { paramStyle := .inline, quoteIdentifiers := true } e .mysql hfloat rfl rfl rfl
  rw [hwrites] at htext hlex
  refine ⟨out, hout, ?_, hlex.trans (by decide +kernel)⟩
  rw [← String.toList_inj, htext]
  decide +kernel

end Expr

end SqlExpr
