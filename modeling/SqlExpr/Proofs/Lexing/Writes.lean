-- SUMMARY: The lexemes of each write, and that its text is cut into them.
import SqlExpr.Proofs.Lexing.Lexemes
import SqlExpr.Proofs.Text.Names
import SqlExpr.Render.Renderer

/-!
# Lexemes of writes

What a reader of SQL should find in the place of each write (`Write.lexemes`), for settings that
write out values and quote names. A write is a gap if it starts and ends with a separator, so that
it keeps apart what stands on its two sides. The text of a gap is cut into its lexemes whatever
follows it (`Write.lexesAnywhere_text`), that of every other write where a gap follows, or nothing
(`Write.lexes_text`).
-/

namespace SqlExpr

/-- Oracle writes booleans as numbers. No lexeme stands for a floating point number. -/
def Value.lexemes (d : Dialect) : Value → List Lexeme
  | .null => [.word "NULL"]
  | .bool b =>
    if d = .oracle then [.number (if b then 1 else 0)] else [.word (if b then "TRUE" else "FALSE")]
  | .int n => if n < 0 then [.symbol "-", .number n.natAbs] else [.number n.natAbs]
  | .float _ => []
  | .text s => [.text s]
  | .blob bytes => [.bytes bytes]

def Column.lexemes (c : Column) : List Lexeme :=
  match c.table with
  | some table => [.name table, .symbol ".", .name c.name]
  | none => [.name c.name]

namespace Write

def lexemes (s : Settings) (d : Dialect) : Write → List Lexeme
  | .keyword k => [.word (s.keywordCase.apply k.text)]
  | .sql " " => []
  | .sql ", " => [.symbol ","]
  | .sql " || " => [.symbol "||"]
  | .sql text => [.symbol text]
  | .functionName f => [.word (s.keywordCase.apply (d.functionName f))]
  | .identifier c => c.lexemes
  | .value c => c.value.lexemes d

/-- Texts that start and end with a separator. -/
def gaps : List String := [" ", "(", ")", ", ", " || "]

def operators : List String :=
  Comparator.all.map (·.symbol) ++ [ArithOp.add.symbol, ArithOp.sub.symbol]

def isGap : Write → Bool
  | .sql text => text ∈ gaps
  | _ => false

/-- Text that is a gap or an operator, and a value that is no floating point number. -/
def Lexical : Write → Prop
  | .sql text => text ∈ gaps ++ operators
  | .value c => ∀ x, c.value ≠ .float x
  | _ => True

end Write

variable {s : Settings} {d : Dialect}

open Lexer

/-! ## Values and columns -/

private theorem Value.toList_literal_int (n : Int) : ((Value.int n).literal d).toList =
    if n < 0 then '-' :: Nat.toDigits 10 n.natAbs else Nat.toDigits 10 n.natAbs := by
  rw [literal, Int.toString_eq_repr, Int.repr_eq_if]
  by_cases hn : n < 0
  · have habs : (-n).toNat = n.natAbs := by omega
    rw [if_neg (by omega), if_pos hn, habs]
    simp [Nat.repr]
  · have habs : n.toNat = n.natAbs := by omega
    rw [if_pos (by omega), if_neg hn, habs]
    simp [Nat.repr]

theorem Value.lexes_literal {v : Value} (h : ∀ x, v ≠ .float x) :
    Lexes d.identifierQuote (v.literal d).toList (v.lexemes d) := by
  have hq := d.identifierQuote_eq
  cases v with
  | null => exact @lexes_word _ "NULL" (by decide)
  | bool b =>
    cases d with
    | oracle =>
      cases b with
      | true => exact lexes_number 1
      | false => exact lexes_number 0
    | _ =>
      cases b with
      | true => exact @lexes_word _ "TRUE" (by decide)
      | false => exact @lexes_word _ "FALSE" (by decide)
  | int n =>
    rw [toList_literal_int, lexemes]
    split
    · exact lexes_minus hq n.natAbs
    · exact lexes_number n.natAbs
  | float x => exact absurd rfl (h x)
  | text s => exact lexes_text hq s
  | blob bytes =>
    have htext : ((Value.blob bytes).literal d).toList =
        'X' :: '\'' :: (Hex.encode bytes ++ ['\'']) := by
      simp [literal]
    rw [htext]
    exact lexes_bytes bytes

private theorem Column.lexes_columnText (hquote : s.quoteIdentifiers = true) (c : Column) :
    Lexes d.identifierQuote (s.columnText d c).toList c.lexemes := by
  have hq := d.identifierQuote_eq
  have hend {rest : List Char} (hrest : Separates rest) :
      rest.head? ≠ some d.identifierQuote := by
    refine hrest.head?_ne ?_
    rcases hq with hq | hq <;> rw [hq] <;> decide
  have hdot (rest : List Char) : ('.' :: rest).head? ≠ some d.identifierQuote := by
    rcases hq with hq | hq <;> simp [hq]
  intro rest hrest
  rw [Settings.columnText, lexemes]
  simp only [Settings.nameText_eq hquote]
  cases c.table with
  | none => exact lex_name hq c.name (hend hrest)
  | some table =>
    have hnext : next d.identifierQuote '.' ((Quoted.encode d.identifierQuote c.name).toList ++ rest) =
        some ([.symbol "."], (Quoted.encode d.identifierQuote c.name).toList ++ rest) :=
      next_of_symbol hq (by decide) _
    have htext : (Quoted.encode d.identifierQuote table ++ "." ++
        Quoted.encode d.identifierQuote c.name).toList ++ rest =
        (Quoted.encode d.identifierQuote table).toList ++
          '.' :: ((Quoted.encode d.identifierQuote c.name).toList ++ rest) := by
      simp
    rw [htext, lex_name hq table (hdot _), lex_of_next hnext, lex_name hq c.name (hend hrest)]
    simp only [Option.map_map]
    rfl

/-! ## Words -/

/-- A word stays one in lower case. -/
private theorem KeywordCase.isPlainWord_apply {token : String}
    (h : isPlainWord token.toList ∧ isPlainWord (token.toList.map Char.toLower))
    (letters : KeywordCase) : isPlainWord (letters.apply token).toList = true := by
  cases letters with
  | upper => exact h.1
  | lower => simpa [apply] using h.2

private theorem Keyword.isPlainWord_text (k : Keyword) :
    isPlainWord k.text.toList ∧ isPlainWord (k.text.toList.map Char.toLower) := by
  cases k <;> decide

private theorem Dialect.isPlainWord_functionName (d : Dialect) (f : Builtin) :
    isPlainWord (d.functionName f).toList ∧
      isPlainWord ((d.functionName f).toList.map Char.toLower) := by
  unfold functionName
  split <;> decide

/-! ## Writes -/

namespace Write

variable {w : Write} {bound : Nat}

theorem isGap_iff : w.isGap = true ↔ ∃ text ∈ gaps, w = .sql text := by
  cases w <;> simp [isGap]

/-- A gap starts with a separator. -/
theorem separates_text (h : w.isGap = true) (rest : List Char) :
    Separates ((s.text d bound w).toList ++ rest) := by
  obtain ⟨text, htext, rfl⟩ := isGap_iff.1 h
  revert text
  simp [gaps, Separates, separators, Settings.text]

theorem lexesAnywhere_text (h : w.isGap = true) :
    LexesAnywhere d.identifierQuote (s.text d bound w).toList (w.lexemes s d) := by
  have hq := d.identifierQuote_eq
  have hblank : LexesAnywhere d.identifierQuote [' '] [] :=
    lexesAnywhere_symbol hq (by decide) fun _ => rfl
  have hcomma : LexesAnywhere d.identifierQuote [','] [.symbol ","] :=
    lexesAnywhere_symbol hq (by decide) fun _ => rfl
  have hbars : LexesAnywhere d.identifierQuote ['|', '|'] [.symbol "||"] :=
    lexesAnywhere_symbol hq (by decide) fun _ => rfl
  obtain ⟨text, htext, rfl⟩ := isGap_iff.1 h
  simp only [gaps, List.mem_cons, List.not_mem_nil, or_false] at htext
  rw [Settings.text]
  rcases htext with rfl | rfl | rfl | rfl | rfl
  · exact hblank
  · exact @lexesAnywhere_symbol _ _ hq '(' [] (by decide) fun _ => rfl
  · exact @lexesAnywhere_symbol _ _ hq ')' [] (by decide) fun _ => rfl
  · exact hcomma.append hblank
  · exact (hblank.append hbars).append hblank

private theorem lexes_operator {text : String} (h : text ∈ operators) :
    Lexes d.identifierQuote text.toList ((Write.sql text).lexemes s d) := by
  have hq := d.identifierQuote_eq
  simp only [operators, Comparator.all, List.map_cons, List.map_nil, Comparator.symbol,
    ArithOp.symbol, List.cons_append, List.nil_append, List.mem_cons, List.not_mem_nil,
    or_false] at h
  rcases h with rfl | rfl | rfl | rfl | rfl | rfl | rfl | rfl
  all_goals
    refine lexes_symbol hq (by decide) rfl ?_
    simp only [separators, List.forall_mem_cons, List.not_mem_nil, false_imp_iff, implies_true,
      and_true]
    exact ⟨fun _ => rfl, fun _ => rfl, fun _ => rfl, fun _ => rfl⟩

theorem lexes_text (hstyle : s.paramStyle = .inline) (hquote : s.quoteIdentifiers = true)
    (hw : w.Lexical) : Lexes d.identifierQuote (s.text d bound w).toList (w.lexemes s d) := by
  cases w with
  | keyword k => exact lexes_word (s.keywordCase.isPlainWord_apply k.isPlainWord_text)
  | functionName f =>
    exact lexes_word (s.keywordCase.isPlainWord_apply (d.isPlainWord_functionName f))
  | identifier c => exact c.lexes_columnText hquote
  | value c =>
    have hout : s.writesOut c = true := by simp [Settings.writesOut, hstyle]
    rw [Settings.text, if_pos hout]
    exact Value.lexes_literal hw
  | sql text =>
    rcases List.mem_append.1 hw with hgap | hop
    · exact (lexesAnywhere_text (isGap_iff.2 ⟨text, hgap, rfl⟩)).lexes
    · exact lexes_operator hop

end Write

end SqlExpr
