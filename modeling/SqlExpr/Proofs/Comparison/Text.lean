-- SUMMARY: Two trees of comparisons have one text exactly when they differ only in grouping.
import SqlExpr.Proofs.Comparison.Grouping
import SqlExpr.Proofs.Render.Writes
import SqlExpr.Proofs.Text.Names

/-!
# The text of comparisons

A comparison is written without parentheses, so its text does not tell which of its operands
is a comparison. With quoted names it tells everything else: the text of a tree is the text
of the unrolled tree (`Expr.comparisonText_unrolled`), and unrolled trees can be told apart by
their text (`Unrolled.tells`).
-/

namespace SqlExpr

namespace Expr

variable {s : Settings} {d : Dialect}

/-! ## Text -/

/-- A comparator with the blanks around it. -/
def spaced (op : Comparator) : List Char := ' ' :: (op.symbol.toList ++ [' '])

/-- The text of columns, comparisons and `NOT`. -/
def comparisonText (s : Settings) (d : Dialect) : Expr → List Char
  | .column c => (s.columnText d c).toList
  | .compare op l r => l.comparisonText s d ++ spaced op ++ r.comparisonText s d
  | .not e => (s.keywordCase.apply "NOT").toList ++ [' ', '('] ++ e.comparisonText s d ++ [')']
  | _ => []

theorem Comparisons.isLogical {e : Expr} (h : Comparisons e) : e.isLogical = false := by
  cases h with
  | _ => rfl

private theorem Comparisons.binds_nothing {e : Expr} (h : Comparisons e) :
    ∀ w ∈ e.writes d, s.binds w = none := by
  induction h with
  | column c => simp [writes_column, Settings.binds]
  | compare op hl hr ihl ihr =>
    simpa [writes_compare, Settings.binds, or_imp, forall_and] using ⟨ihl, ihr⟩
  | not he ih => simpa [writes_not he.isLogical, Settings.binds, or_imp, forall_and] using ih

private theorem Comparisons.flatMap_writes {e : Expr} (h : Comparisons e) :
    ((e.writes d).flatMap fun w => (s.text d 0 w).toList) = e.comparisonText s d := by
  induction h with
  | column c => simp [writes_column, Settings.text, comparisonText]
  | compare op hl hr ihl ihr =>
    rw [writes_compare, List.flatMap_append, List.flatMap_append, ihl, ihr]
    simp [Settings.text, comparisonText, spaced]
  | not he ih =>
    rw [writes_not he.isLogical, List.flatMap_append, List.flatMap_append, ih]
    simp [Settings.text, Keyword.text, comparisonText]

private theorem Comparisons.sql_rendered {e : Expr} (h : Comparisons e) :
    (e.rendered d s).sql.toList = e.comparisonText s d := by
  rw [rendered, Renderer.rendered, Renderer.sql_takeUp h.binds_nothing, h.flatMap_writes]
  rfl

/-! ## Groupings with one text -/

private theorem comparisonText_graft (op : Comparator) (l r : Expr) :
    (graft op l r).comparisonText s d =
      l.comparisonText s d ++ spaced op ++ r.comparisonText s d := by
  induction r with
  | compare op' a b iha ihb => simp [graft, comparisonText, iha]
  | _ => rfl

private theorem comparisonText_extend (op : Comparator) (last chain : Expr) :
    (extend op last chain).comparisonText s d =
      chain.comparisonText s d ++ spaced op ++ last.comparisonText s d := by
  induction chain with
  | compare op' a b iha ihb => simp [extend, comparisonText, ihb]
  | _ => rfl

private theorem comparisonText_regrouped (e : Expr) :
    e.regrouped.comparisonText s d = e.comparisonText s d := by
  induction e with
  | compare op l r ihl ihr => rw [regrouped, comparisonText_graft, ihl, ihr, comparisonText]
  | not e ih => rw [regrouped, comparisonText, ih, comparisonText]
  | _ => rfl

theorem comparisonText_unrolled (e : Expr) :
    e.unrolled.comparisonText s d = e.comparisonText s d := by
  induction e with
  | compare op l r ihl ihr => rw [unrolled, comparisonText_extend, ihl, ihr, comparisonText]
  | not e ih => rw [unrolled, comparisonText, ih, comparisonText]
  | _ => rfl

/-! ## Unrolled trees -/

/-- What can stand behind a whole expression: nothing, or the parenthesis that closes a `NOT`. -/
def Ends (rest : List Char) : Prop := rest = [] ∨ ∃ tail, rest = ')' :: tail

/-- What can stand behind an operand of a comparison. -/
def Stops (rest : List Char) : Prop := Ends rest ∨ ∃ tail, rest = ' ' :: tail

theorem Stops.head {rest : List Char} (h : Stops rest) (d : Dialect) :
    rest.head? ≠ some d.identifierQuote ∧ rest.head? ≠ some '.' := by
  rcases h with (rfl | ⟨tail, rfl⟩) | ⟨tail, rfl⟩
  · simp
  · rcases d.identifierQuote_eq with hq | hq <;> rw [hq] <;> simp
  · rcases d.identifierQuote_eq with hq | hq <;> rw [hq] <;> simp

theorem not_ends_spaced (op : Comparator) (text : List Char) : ¬Ends (spaced op ++ text) := by
  rintro (h | ⟨tail, h⟩)
  · cases h
  · cases h

/-- A quoted name does not start as `NOT` does. -/
theorem columnText_ne_not (hquote : s.quoteIdentifiers = true) (c : Column)
    (rest text : List Char) :
    (s.columnText d c).toList ++ rest ≠ (s.keywordCase.apply "NOT").toList ++ text := by
  obtain ⟨name, hname⟩ := Settings.columnText_eq_cons (d := d) hquote c
  rw [hname]
  rcases d.identifierQuote_eq with hq | hq <;> rw [hq] <;> cases s.keywordCase <;>
    simp [KeywordCase.apply]

/-- Read a comparator with the blanks around it. -/
def scanComparator : List Char → Option (Comparator × List Char)
  | ' ' :: '=' :: ' ' :: rest => some (.eq, rest)
  | ' ' :: '<' :: '>' :: ' ' :: rest => some (.ne, rest)
  | ' ' :: '>' :: ' ' :: rest => some (.gt, rest)
  | ' ' :: '>' :: '=' :: ' ' :: rest => some (.ge, rest)
  | ' ' :: '<' :: ' ' :: rest => some (.lt, rest)
  | ' ' :: '<' :: '=' :: ' ' :: rest => some (.le, rest)
  | _ => none

private theorem scanComparator_spaced (op : Comparator) (text : List Char) :
    scanComparator (spaced op ++ text) = some (op, text) := by
  cases op <;> rfl

private theorem spaced_append_inj {op op' : Comparator} {text text' : List Char}
    (h : spaced op ++ text = spaced op' ++ text') : op = op' ∧ text = text' := by
  have hscan := scanComparator_spaced op text
  rw [h, scanComparator_spaced, Option.some.injEq, Prod.mk.injEq] at hscan
  exact ⟨hscan.1.symm, hscan.2.symm⟩

/-- The text of a comparand tells it from every other comparand, whatever stands behind them. -/
def TellsComparand (s : Settings) (d : Dialect) (e : Expr) : Prop :=
  ∀ ⦃e' : Expr⦄ ⦃rest rest' : List Char⦄, Comparand e' →
    e.comparisonText s d ++ rest = e'.comparisonText s d ++ rest' → Stops rest → Stops rest' →
    e = e' ∧ rest = rest'

/-- The text of an unrolled tree tells it from every other unrolled tree. -/
def TellsUnrolled (s : Settings) (d : Dialect) (e : Expr) : Prop :=
  ∀ ⦃e' : Expr⦄ ⦃rest rest' : List Char⦄, Unrolled e' →
    e.comparisonText s d ++ rest = e'.comparisonText s d ++ rest' → Ends rest → Ends rest' →
    e = e' ∧ rest = rest'

private theorem tellsComparand_column (hquote : s.quoteIdentifiers = true) (table : Option String)
    (name : String) : TellsComparand s d (.column ⟨table, name, .unknown⟩) := by
  intro e' rest rest' he' h hrest hrest'
  cases he' with
  | column table' name' =>
    obtain ⟨htable, hname, hrest⟩ :=
      Settings.columnText_append_inj hquote h (hrest.head d) (hrest'.head d)
    cases htable
    cases hname
    exact ⟨rfl, hrest⟩
  | not he' =>
    simp only [comparisonText, List.append_assoc] at h
    exact absurd h (columnText_ne_not hquote _ _ _)

theorem TellsUnrolled.not (hquote : s.quoteIdentifiers = true) {e : Expr}
    (he : TellsUnrolled s d e) : TellsComparand s d (.not e) := by
  intro e' rest rest' he' h hrest hrest'
  cases he' with
  | column table' name' =>
    simp only [comparisonText, List.append_assoc] at h
    exact absurd h.symm (columnText_ne_not hquote _ _ _)
  | not he' =>
    simp only [comparisonText, List.append_assoc, List.append_cancel_left_eq] at h
    obtain ⟨rfl, htail⟩ := he he' h (.inr ⟨rest, rfl⟩) (.inr ⟨rest', rfl⟩)
    exact ⟨rfl, List.append_cancel_left htail⟩

theorem TellsComparand.unrolled {e : Expr} (he : TellsComparand s d e) : TellsUnrolled s d e := by
  intro e' rest rest' he' h hrest hrest'
  cases he' with
  | comparand he' => exact he he' h (.inl hrest) (.inl hrest')
  | compare op' hl' hr' =>
    simp only [comparisonText, List.append_assoc] at h
    obtain ⟨-, hspaced⟩ := he hl' h (.inl hrest) (.inr ⟨_, rfl⟩)
    exact absurd (hspaced ▸ hrest) (not_ends_spaced op' _)

theorem TellsComparand.compare (op : Comparator) {l r : Expr} (hl : TellsComparand s d l)
    (hr : TellsUnrolled s d r) : TellsUnrolled s d (.compare op l r) := by
  intro e' rest rest' he' h hrest hrest'
  cases he' with
  | comparand he' =>
    simp only [comparisonText, List.append_assoc] at h
    obtain ⟨-, hspaced⟩ := hl he' h (.inr ⟨_, rfl⟩) (.inl hrest')
    exact absurd (hspaced ▸ hrest') (not_ends_spaced op _)
  | compare op' hl' hr' =>
    simp only [comparisonText, List.append_assoc] at h
    obtain ⟨rfl, hspaced⟩ := hl hl' h (.inr ⟨_, rfl⟩) (.inr ⟨_, rfl⟩)
    obtain ⟨rfl, hright⟩ := spaced_append_inj hspaced
    obtain ⟨rfl, htail⟩ := hr hr' hright hrest hrest'
    exact ⟨rfl, htail⟩

theorem Unrolled.tells (hquote : s.quoteIdentifiers = true) {e : Expr} (he : Unrolled e) :
    TellsUnrolled s d e :=
  @Unrolled.rec (fun e _ => TellsComparand s d e) (fun e _ => TellsUnrolled s d e)
    (tellsComparand_column hquote) (fun _ he => he.not hquote) (fun _ he => he.unrolled)
    (fun op _ _ _ _ hl hr => hl.compare op hr) e he

/-! ## Rendering -/

/-- Two trees of comparisons are rendered to one text exactly if they differ in nothing but how
    comparisons are grouped. Where all comparisons are nested to the left, they then have the same
    value. -/
theorem sql_eq_iff_regrouped_eq {e e' : Expr} (he : Comparisons e) (he' : Comparisons e')
    (hquote : s.quoteIdentifiers = true) {out out' : Rendered} (hout : e.render d s = .ok out)
    (hout' : e'.render d s = .ok out') :
    (out.sql = out'.sql ↔ e.regrouped = e'.regrouped) ∧
      (e.Everywhere ComparesLeft → e'.Everywhere ComparesLeft → out.sql = out'.sql →
        ∀ env : Option String → String → Datum,
          e.eval (fun c => env c.table c.name) = e'.eval (fun c => env c.table c.name)) := by
  have hsame : out.sql = out'.sql ↔ e.regrouped = e'.regrouped := by
    rw [eq_rendered_of_render hout, eq_rendered_of_render hout', ← String.toList_inj,
      he.sql_rendered, he'.sql_rendered]
    constructor
    · intro htext
      rw [← comparisonText_unrolled e, ← comparisonText_unrolled e'] at htext
      have htext : e.unrolled.comparisonText s d ++ [] = e'.unrolled.comparisonText s d ++ [] := by
        rw [htext]
      obtain ⟨hunrolled, -⟩ :=
        he.unrolled.tells hquote he'.unrolled htext (.inl rfl) (.inl rfl)
      rw [← regrouped_unrolled e, hunrolled, regrouped_unrolled]
    · intro hregrouped
      rw [← comparisonText_regrouped e, hregrouped, comparisonText_regrouped]
  refine ⟨hsame, ?_⟩
  intro hleft hleft' hsql env
  have huntyped := hsame.1 hsql
  rw [regrouped_of_comparesLeft hleft, regrouped_of_comparesLeft hleft'] at huntyped
  rw [← eval_untyped env he, huntyped, eval_untyped env he']

/-- With and without the type of a column, a chain that is nested to the left has one text and one
    value. -/
theorem sql_eq_iff_of_typed_column :
    let chain (a : Expr) : Expr :=
      .not (.compare .lt (.compare .eq a (.column ⟨none, "b", .unknown⟩))
        (.column ⟨some "t", "c", .unknown⟩))
    let e := chain (.column ⟨none, "a", .unknown⟩)
    let e' := chain (.column ⟨none, "a", .integer⟩)
    let s : Settings := { quoteIdentifiers := true }
    Comparisons e ∧ Comparisons e' ∧ e.render .mysql s = .ok (e.rendered .mysql s) ∧
      e'.render .mysql s = .ok (e'.rendered .mysql s) ∧
      e.Everywhere ComparesLeft ∧ e'.Everywhere ComparesLeft ∧
      (e.rendered .mysql s).sql = (e'.rendered .mysql s).sql ∧
      ∀ env : Option String → String → Datum,
        e.eval (fun c => env c.table c.name) = e'.eval (fun c => env c.table c.name) := by
  intro chain e e' s
  have hchain (c : Column) : Comparisons (chain (.column c)) :=
    .not (.compare _ (.compare _ (.column _) (.column _)) (.column _))
  have hleft (c : Column) : (chain (.column c)).Everywhere ComparesLeft := by
    simp [chain, ComparesLeft]
  have hout : e.render .mysql s = .ok (e.rendered .mysql s) := render_of_unlimited rfl
  have hout' : e'.render .mysql s = .ok (e'.rendered .mysql s) := render_of_unlimited rfl
  obtain ⟨hsame, hvalue⟩ := sql_eq_iff_regrouped_eq (hchain _) (hchain _) rfl hout hout'
  have hsql := hsame.2 rfl
  exact ⟨hchain _, hchain _, hout, hout', hleft _, hleft _, hsql, hvalue (hleft _) (hleft _) hsql⟩

/-- `(a < b) < c` and `a < (b < c)` have one text, and for `a` and `c` true and `b` false they have
    different values. -/
theorem render_nested_comparisons :
    let a : Expr := .column ⟨none, "a", .unknown⟩
    let b : Expr := .column ⟨none, "b", .unknown⟩
    let c : Expr := .column ⟨none, "c", .unknown⟩
    let left : Expr := .compare .lt (.compare .lt a b) c
    let right : Expr := .compare .lt a (.compare .lt b c)
    let s : Settings := { quoteIdentifiers := true }
    let env : Column → Datum := fun c => .bool (c.name != "b")
    left.render .generic s = .ok ⟨"\"a\" < \"b\" < \"c\"", #[]⟩ ∧
      right.render .generic s = .ok ⟨"\"a\" < \"b\" < \"c\"", #[]⟩ ∧
      left.eval env = some (.bool true) ∧ right.eval env = some (.bool false) := by
  intro a b c left right s env
  refine ⟨?_, ?_, ?_, ?_⟩
  · rw [render_of_unlimited rfl]
    simp only [left, a, b, c, rendered, writes_compare, writes_column]
    exact congrArg Except.ok (by decide +kernel)
  · rw [render_of_unlimited rfl]
    simp only [right, a, b, c, rendered, writes_compare, writes_column]
    exact congrArg Except.ok (by decide +kernel)
  · decide
  · decide

end Expr

end SqlExpr
