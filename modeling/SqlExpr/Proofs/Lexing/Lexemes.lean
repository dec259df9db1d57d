-- SUMMARY: What the lexer makes of single tokens, whatever follows them.
import SqlExpr.Text.Lexer

/-!
# Texts of single tokens

A text `Lexes` to some lexemes if it is cut into them wherever a blank, a parenthesis or a comma
follows, or nothing. A text that ends in one of these may have anything behind it
(`LexesAnywhere`).
-/

namespace SqlExpr.Lexer

/-! ## Texts and what follows them -/

/-- Characters that belong to nothing that stands before them. -/
def separators : List Char := [' ', '(', ')', ',']

/-- A separator follows, or nothing. -/
def Separates (rest : List Char) : Prop := ∀ c ∈ rest.head?, c ∈ separators

/-- Whatever follows, the text is cut into the lexemes. -/
def LexesAnywhere (quote : Char) (text : List Char) (ls : List Lexeme) : Prop :=
  ∀ rest, lex quote (text ++ rest) = (lex quote rest).map (ls ++ ·)

/-- Where a separator follows, or nothing, the text is cut into the lexemes. -/
def Lexes (quote : Char) (text : List Char) (ls : List Lexeme) : Prop :=
  ∀ rest, Separates rest → lex quote (text ++ rest) = (lex quote rest).map (ls ++ ·)

variable {quote : Char} {text text' : List Char} {ls ks : List Lexeme}

theorem Separates.head?_ne {rest : List Char} (h : Separates rest) {c : Char}
    (hc : c ∉ separators) : rest.head? ≠ some c :=
  fun hhead => hc (h c hhead)

theorem LexesAnywhere.lexes (h : LexesAnywhere quote text ls) : Lexes quote text ls :=
  fun rest _ => h rest

private theorem lexesAnywhere_of_next {c : Char} {cs : List Char}
    (h : ∀ rest, next quote c (cs ++ rest) = some (ls, rest)) :
    LexesAnywhere quote (c :: cs) ls :=
  fun rest => lex_of_next (h rest)

theorem lexes_of_next {c : Char} {cs : List Char}
    (h : ∀ rest, Separates rest → next quote c (cs ++ rest) = some (ls, rest)) :
    Lexes quote (c :: cs) ls :=
  fun rest hrest => lex_of_next (h rest hrest)

theorem lex_append {rest : List Char}
    (h : lex quote (text ++ (text' ++ rest)) = (lex quote (text' ++ rest)).map (ls ++ ·))
    (h' : lex quote (text' ++ rest) = (lex quote rest).map (ks ++ ·)) :
    lex quote (text ++ text' ++ rest) = (lex quote rest).map (ls ++ ks ++ ·) := by
  rw [List.append_assoc, h, h', Option.map_map]
  congr 1
  funext us
  simp

theorem LexesAnywhere.append (h : LexesAnywhere quote text ls) (h' : LexesAnywhere quote text' ks) :
    LexesAnywhere quote (text ++ text') (ls ++ ks) :=
  fun rest => lex_append (h _) (h' rest)

theorem LexesAnywhere.append_lexes (h : LexesAnywhere quote text ls) (h' : Lexes quote text' ks) :
    Lexes quote (text ++ text') (ls ++ ks) :=
  fun rest hrest => lex_append (h _) (h' rest hrest)

/-- The second text keeps the first one apart from what follows both. -/
theorem Lexes.append (h : Lexes quote text ls)
    (hapart : ∀ rest, Separates rest → Separates (text' ++ rest)) (h' : Lexes quote text' ks) :
    Lexes quote (text ++ text') (ls ++ ks) :=
  fun rest hrest => lex_append (h _ (hapart rest hrest)) (h' rest hrest)

/-! ## Words and numbers -/

/-- A word that does not start as a literal of bytes does. -/
def isPlainWord : List Char → Bool
  | [] => false
  | c :: cs => !c.isDigit && isWordStart c && c != 'X' && cs.all isWordChar

theorem Separates.takeWhile {rest : List Char} (h : Separates rest) {p : Char → Bool}
    (hp : separators.all (!p ·) = true) {run : List Char} (hrun : ∀ c ∈ run, p c = true) :
    (run ++ rest).takeWhile p = run ∧ (run ++ rest).dropWhile p = rest := by
  rw [List.takeWhile_append_of_pos hrun, List.dropWhile_append_of_pos hrun]
  cases rest with
  | nil => simp
  | cons c rest =>
    have hc := List.all_eq_true.1 hp c (h c rfl)
    simp_all

theorem lexes_word {w : String} (h : isPlainWord w.toList = true) :
    Lexes quote w.toList [.word w] := by
  cases hw : w.toList with
  | nil => simp [isPlainWord, hw] at h
  | cons c cs =>
    simp only [hw, isPlainWord, Bool.and_eq_true, Bool.not_eq_true', bne_iff_ne, ne_eq,
      List.all_eq_true] at h
    obtain ⟨⟨⟨hdigit, hstart⟩, hX⟩, hcs⟩ := h
    refine lexes_of_next fun rest hrest => ?_
    obtain ⟨htake, hdrop⟩ := hrest.takeWhile (p := isWordChar) (by decide) hcs
    have hword : String.ofList (c :: cs) = w := by rw [← hw, String.ofList_toList]
    simp only [next, hdigit, hstart, if_true, Bool.false_eq_true, if_false]
    unfold readWord
    split
    · exact absurd rfl hX
    · rw [htake, hdrop, hword]

theorem lexes_number (n : Nat) : Lexes quote (Nat.toDigits 10 n) [.number n] := by
  have hdigits : ∀ c ∈ Nat.toDigits 10 n, c.isDigit = true := fun c hc =>
    Nat.isDigit_of_mem_toDigits (by decide) (by decide) hc
  have hvalue : Nat.ofDigitChars 10 (Nat.toDigits 10 n) 0 = n := Nat.ofDigitChars_ten_toDigits
  cases hn : Nat.toDigits 10 n with
  | nil => exact absurd hn Nat.toDigits_ne_nil
  | cons c cs =>
    rw [hn] at hdigits hvalue
    refine lexes_of_next fun rest hrest => ?_
    obtain ⟨htake, hdrop⟩ := hrest.takeWhile (p := Char.isDigit) (by decide)
      fun c' hc' => hdigits c' (List.mem_cons_of_mem _ hc')
    simp only [next, hdigits c List.mem_cons_self, if_true, htake, hdrop, hvalue]

/-! ## Symbols and quotes -/

/-- The characters around names. -/
def QuotesNames (quote : Char) : Prop := quote = '\x60' ∨ quote = '"'

/-- What symbols, blanks and literals of text start with. -/
def symbolStarts : List Char := [' ', '-', '\'', '|', '<', '>', '=', '+', '(', ')', ',', '.']

theorem next_of_symbol (hq : QuotesNames quote) {c : Char} (hc : c ∈ symbolStarts)
    (cs : List Char) : next quote c cs = readSymbol c cs := by
  have hclass : symbolStarts.all fun c =>
      c.isDigit = false ∧ isWordStart c = false ∧ c ≠ '\x60' ∧ c ≠ '"' := by
    decide
  obtain ⟨hdigit, hstart, hgrave, hdouble⟩ := of_decide_eq_true (List.all_eq_true.1 hclass c hc)
  have hquote : c ≠ quote := by
    rcases hq with rfl | rfl
    · exact hgrave
    · exact hdouble
  simp [next, hdigit, hstart, hquote]

/-- A symbol or blank that ends where it is, whatever follows. -/
theorem lexesAnywhere_symbol (hq : QuotesNames quote) {c : Char} {cs : List Char}
    (hc : c ∈ symbolStarts)
    (h : ∀ rest, readSymbol c (cs ++ rest) = some (ls, rest)) :
    LexesAnywhere quote (c :: cs) ls :=
  lexesAnywhere_of_next fun rest => (next_of_symbol hq hc _).trans (h rest)

/-- A symbol that no separator can be a part of. -/
theorem lexes_symbol (hq : QuotesNames quote) {c : Char} {cs : List Char} (hc : c ∈ symbolStarts)
    (hend : readSymbol c cs = some (ls, []))
    (h : ∀ first ∈ separators, ∀ rest,
      readSymbol c (cs ++ first :: rest) = some (ls, first :: rest)) :
    Lexes quote (c :: cs) ls := by
  refine lexes_of_next fun rest hrest => ?_
  rw [next_of_symbol hq hc]
  cases rest with
  | nil => rwa [List.append_nil]
  | cons first rest => exact h first (hrest first rfl) rest

/-- The minus of a negative number starts no comment. -/
theorem lexes_minus (hq : QuotesNames quote) (n : Nat) :
    Lexes quote ('-' :: Nat.toDigits 10 n) [.symbol "-", .number n] := by
  intro rest hrest
  have hread : readSymbol '-' (Nat.toDigits 10 n ++ rest) =
      some ([.symbol "-"], Nat.toDigits 10 n ++ rest) := by
    cases hn : Nat.toDigits 10 n with
    | nil => exact absurd hn Nat.toDigits_ne_nil
    | cons c cs =>
      have hdigit : c.isDigit = true :=
        Nat.isDigit_of_mem_toDigits (by decide) (by decide) (hn ▸ List.mem_cons_self)
      unfold readSymbol
      split <;> simp_all
  have hnext : next quote '-' (Nat.toDigits 10 n ++ rest) =
      some ([.symbol "-"], Nat.toDigits 10 n ++ rest) := by
    rw [next_of_symbol hq (by decide), hread]
  rw [List.cons_append, lex_of_next hnext, lexes_number n rest hrest, Option.map_map]
  rfl

theorem lexes_text (hq : QuotesNames quote) (s : String) :
    Lexes quote (Quoted.encode '\'' s).toList [.text s] := by
  rw [Quoted.toList_encode]
  refine lexes_of_next fun rest hrest => ?_
  have hhead : rest.head? ≠ some '\'' := hrest.head?_ne (by decide)
  rw [next_of_symbol hq (by decide), List.append_assoc]
  simp [readSymbol, Quoted.scan_escape '\'' s.toList hhead]

/-- Hexadecimal digits are no quotes. -/
theorem escape_encode (bytes : List UInt8) :
    Quoted.escape '\'' (Hex.encode bytes) = Hex.encode bytes := by
  have hdigit : ∀ n < 16, Hex.digit n ≠ '\'' := by decide
  induction bytes with
  | nil => rfl
  | cons b bytes ih =>
    have hb : b.toNat < 256 := b.toNat_lt
    have hbyte : Quoted.escape '\'' (Hex.encodeByte b) = Hex.encodeByte b := by
      simp [Hex.encodeByte, Quoted.escape, hdigit _ (show b.toNat / 16 < 16 by omega),
        hdigit _ (show b.toNat % 16 < 16 by omega)]
    rw [Hex.encode, List.flatMap_cons, Quoted.escape_append, hbyte]
    exact congrArg (Hex.encodeByte b ++ ·) ih

theorem lexes_bytes (bytes : List UInt8) :
    Lexes quote ('X' :: '\'' :: (Hex.encode bytes ++ ['\''])) [.bytes bytes] := by
  refine lexes_of_next fun rest hrest => ?_
  have hhead : rest.head? ≠ some '\'' := hrest.head?_ne (by decide)
  have hscan : Quoted.scan '\'' (Hex.encode bytes ++ '\'' :: rest) =
      some (Hex.encode bytes, rest) := by
    have := Quoted.scan_escape '\'' (Hex.encode bytes) hhead
    rwa [escape_encode] at this
  simp [next, isWordStart, readWord, hscan, Hex.decode_encode]

/-- A name is read up to its closing quote. -/
theorem lex_name (hq : QuotesNames quote) (s : String) {rest : List Char}
    (hrest : rest.head? ≠ some quote) :
    lex quote ((Quoted.encode quote s).toList ++ rest) =
      (lex quote rest).map ([.name s] ++ ·) := by
  have hclass : quote.isDigit = false ∧ isWordStart quote = false := by
    rcases hq with rfl | rfl
    · decide
    · decide
  rw [Quoted.toList_encode, List.cons_append]
  refine lex_of_next ?_
  rw [List.append_assoc]
  simp [next, hclass, Quoted.scan_escape quote s.toList hrest]

end SqlExpr.Lexer
