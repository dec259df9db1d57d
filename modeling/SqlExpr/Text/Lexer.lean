-- SUMMARY: A lexer of SQL text.
import SqlExpr.Text.Hex
import SqlExpr.Text.Quoted

/-!
# Lexer

`Lexer.lex` cuts SQL text into lexemes, each as long as it can be. It skips blanks and comments, and
takes a backslash for a character like any other. It knows nothing of how the text was made.
-/

namespace SqlExpr

inductive Lexeme
  /-- The text of a literal in single quotes. -/
  | text (s : String)
  /-- The bytes of a literal `X'...'`. -/
  | bytes (bytes : List UInt8)
  /-- A name in the quotes of the dialect. -/
  | name (s : String)
  | number (n : Nat)
  | word (w : String)
  | symbol (s : String)
  deriving DecidableEq, Repr

namespace Lexer

def isWordStart (c : Char) : Bool := c.isAlpha || c == '_'

def isWordChar (c : Char) : Bool := c.isAlphanum || c == '_'

/-- The symbol, blank, comment or text literal that starts with `c`. A comment ends with its line. -/
def readSymbol (c : Char) (cs : List Char) : Option (List Lexeme × List Char) :=
  match c, cs with
  | ' ', cs => some ([], cs)
  | '-', '-' :: cs => some ([], cs.dropWhile (· != '\n'))
  | '\'', cs => (Quoted.scan '\'' cs).map fun (s, rest) => ([.text (String.ofList s)], rest)
  | '|', '|' :: cs => some ([.symbol "||"], cs)
  | '<', '>' :: cs => some ([.symbol "<>"], cs)
  | '<', '=' :: cs => some ([.symbol "<="], cs)
  | '>', '=' :: cs => some ([.symbol ">="], cs)
  | '<', cs => some ([.symbol "<"], cs)
  | '>', cs => some ([.symbol ">"], cs)
  | '=', cs => some ([.symbol "="], cs)
  | '+', cs => some ([.symbol "+"], cs)
  | '-', cs => some ([.symbol "-"], cs)
  | '(', cs => some ([.symbol "("], cs)
  | ')', cs => some ([.symbol ")"], cs)
  | ',', cs => some ([.symbol ","], cs)
  | '.', cs => some ([.symbol "."], cs)
  | _, _ => none

/-- The word or the literal of bytes that starts with `c`. -/
def readWord (c : Char) (cs : List Char) : Option (List Lexeme × List Char) :=
  match c, cs with
  | 'X', '\'' :: cs => do
    let (digits, rest) ← Quoted.scan '\'' cs
    let bytes ← Hex.decode digits
    return ([.bytes bytes], rest)
  | c, cs =>
    some ([.word (String.ofList (c :: cs.takeWhile isWordChar))], cs.dropWhile isWordChar)

/-- What starts with `c`, as a list with at most one lexeme, and what follows it. -/
def next (quote : Char) (c : Char) (cs : List Char) : Option (List Lexeme × List Char) :=
  if c.isDigit then
    some ([.number (Nat.ofDigitChars 10 (c :: cs.takeWhile Char.isDigit) 0)],
      cs.dropWhile Char.isDigit)
  else if isWordStart c then readWord c cs
  else if c = quote then
    (Quoted.scan quote cs).map fun (s, rest) => ([.name (String.ofList s)], rest)
  else readSymbol c cs

theorem length_le_of_scan {q : Char} {cs s rest : List Char}
    (h : Quoted.scan q cs = some (s, rest)) : rest.length ≤ cs.length := by
  fun_induction Quoted.scan q cs generalizing s rest with
  | case1 | case3 => cases h
  | case2 => cases h; simp
  | case4 tail ih =>
    obtain ⟨⟨s, rest⟩, hscan, heq⟩ := Option.map_eq_some_iff.1 h
    cases heq
    have := ih hscan
    simp only [List.length_cons]
    omega
  | case5 => cases h; simp
  | case6 c d tail _ ih =>
    obtain ⟨⟨s, rest⟩, hscan, heq⟩ := Option.map_eq_some_iff.1 h
    cases heq
    have := ih hscan
    simp only [List.length_cons] at this ⊢
    omega

private theorem length_le_of_readSymbol {c : Char} {cs rest : List Char} {ls : List Lexeme}
    (h : readSymbol c cs = some (ls, rest)) : rest.length ≤ cs.length := by
  unfold readSymbol at h
  split at h
  case h_2 cs =>
    cases h
    exact Nat.le_succ_of_le (List.dropWhile_suffix _).length_le
  case h_3 cs =>
    obtain ⟨⟨s, rest⟩, hscan, heq⟩ := Option.map_eq_some_iff.1 h
    cases heq
    exact length_le_of_scan hscan
  all_goals cases h <;> simp

private theorem length_le_of_readWord {c : Char} {cs rest : List Char} {ls : List Lexeme}
    (h : readWord c cs = some (ls, rest)) : rest.length ≤ cs.length := by
  unfold readWord at h
  split at h
  · next cs =>
    simp only [Option.bind_eq_bind, Option.bind_eq_some_iff, Option.pure_def, Option.some.injEq,
      Prod.mk.injEq, Prod.exists] at h
    obtain ⟨digits, rest', hscan, bytes, -, -, rfl⟩ := h
    exact Nat.le_succ_of_le (length_le_of_scan hscan)
  · cases h
    exact (List.dropWhile_suffix _).length_le

private theorem length_le_of_next {quote c : Char} {cs rest : List Char} {ls : List Lexeme}
    (h : next quote c cs = some (ls, rest)) : rest.length ≤ cs.length := by
  unfold next at h
  split at h
  · cases h
    exact (List.dropWhile_suffix _).length_le
  · split at h
    · exact length_le_of_readWord h
    · split at h
      · obtain ⟨⟨s, rest⟩, hscan, heq⟩ := Option.map_eq_some_iff.1 h
        cases heq
        exact length_le_of_scan hscan
      · exact length_le_of_readSymbol h

/-- The lexemes of a text, with names in the given quotes; `none` if some character starts none. -/
def lex (quote : Char) : List Char → Option (List Lexeme)
  | [] => some []
  | c :: cs =>
    match _h : next quote c cs with
    | none => none
    | some (ls, rest) => (lex quote rest).map (ls ++ ·)
termination_by cs => cs.length
decreasing_by
  have := length_le_of_next _h
  simp only [List.length_cons]
  omega

theorem lex_of_next {quote c : Char} {cs rest : List Char} {ls : List Lexeme}
    (h : next quote c cs = some (ls, rest)) :
    lex quote (c :: cs) = (lex quote rest).map (ls ++ ·) := by
  rw [lex]
  split
  · next h' => cases h.symm.trans h'
  · next h' => cases h.symm.trans h'; rfl

end Lexer

end SqlExpr
