-- SUMMARY: Quoted names and literals are read back by a scan, and literals tell values apart.
import SqlExpr.Proofs.Lexing.Writes

/-!
# Reading quotations back

A scan takes a doubled quote for one and stops at the first single one. What it reads is exactly
what quoting writes (`Quoted.read?_eq_some_iff`), so it inverts the quoting of names, the literals
of texts and those of bytes. Literals are the same only for the same values, but that Oracle writes
booleans as numbers (`Value.literal_eq_literal_iff`).
-/

namespace SqlExpr

namespace Quoted

variable {q : Char} {cs rest : List Char}

/-- Read a quoted text with its opening quote. Returns the text and what follows it. -/
def read? (q : Char) : List Char → Option (String × List Char)
  | [] => none
  | c :: cs => if c = q then (scan q cs).map fun (s, rest) => (String.ofList s, rest) else none

/-- What has been scanned is a text with its quotes doubled, and a quote that is not doubled. -/
private theorem eq_of_scan {s : List Char} (h : scan q cs = some (s, rest)) :
    cs = escape q s ++ q :: rest ∧ rest.head? ≠ some q := by
  fun_induction scan q cs generalizing s with
  | case1 | case3 => cases h
  | case2 =>
    cases h
    exact ⟨rfl, by simp⟩
  | case4 cs ih =>
    obtain ⟨⟨s, rest⟩, hscan, heq⟩ := Option.map_eq_some_iff.1 h
    cases heq
    obtain ⟨rfl, hrest⟩ := ih hscan
    simp [escape, hrest]
  | case5 d cs hd =>
    cases h
    exact ⟨rfl, by simpa using hd⟩
  | case6 c d cs hc ih =>
    obtain ⟨⟨s, rest⟩, hscan, heq⟩ := Option.map_eq_some_iff.1 h
    cases heq
    obtain ⟨hcs, hrest⟩ := ih hscan
    simp [escape, hc, hcs, hrest]

theorem read?_encode_append (s : String) (hrest : rest.head? ≠ some q) :
    read? q ((encode q s).toList ++ rest) = some (s, rest) := by
  simp [toList_encode, read?, scan_escape q s.toList hrest]

/-- A quoted text is read, and nothing else is. -/
theorem read?_eq_some_iff {s : String} :
    read? q cs = some (s, rest) ↔ cs = (encode q s).toList ++ rest ∧ rest.head? ≠ some q := by
  constructor
  · intro h
    cases cs with
    | nil => cases h
    | cons c cs =>
      by_cases hc : c = q
      · rw [read?, if_pos hc] at h
        obtain ⟨⟨s, rest⟩, hscan, heq⟩ := Option.map_eq_some_iff.1 h
        cases heq
        obtain ⟨rfl, hrest⟩ := eq_of_scan hscan
        simp [toList_encode, hc, hrest]
      · rw [read?, if_neg hc] at h
        cases h
  · rintro ⟨rfl, hrest⟩
    exact read?_encode_append s hrest

end Quoted

/-- Read a literal of bytes: the digits between quotes behind an `X`. -/
def Hex.read? : List Char → Option (List UInt8 × List Char)
  | 'X' :: cs => do
    let (digits, rest) ← Quoted.read? '\'' cs
    let bytes ← decode digits.toList
    return (bytes, rest)
  | _ => none

variable {d : Dialect}

/-! ## Literals -/

namespace Value

private theorem literal_blob (bytes : List UInt8) :
    ((Value.blob bytes).literal d).toList =
      'X' :: (Quoted.encode '\'' (String.ofList (Hex.encode bytes))).toList := by
  simp [literal, Quoted.toList_encode, Lexer.escape_encode]

private theorem read?_literal_blob (bytes : List UInt8) {rest : List Char}
    (hrest : rest.head? ≠ some '\'') :
    Hex.read? (((Value.blob bytes).literal d).toList ++ rest) = some (bytes, rest) := by
  rw [literal_blob, List.cons_append, Hex.read?, Quoted.read?_encode_append _ hrest]
  simp [Hex.decode_encode]

/-- The value that a literal shows: Oracle writes booleans as numbers. -/
def shown (d : Dialect) : Value → Value
  | .bool b => if d = .oracle then .int b.toNat else .bool b
  | v => v

private theorem shown_of_ne_oracle (hd : d ≠ .oracle) (v : Value) : v.shown d = v := by
  cases v <;> simp [shown, hd]

private theorem literal_shown (v : Value) : (v.shown d).literal d = v.literal d := by
  cases v with
  | bool b =>
    by_cases hd : d = .oracle
    · subst hd
      cases b <;> rfl
    · rw [shown, if_neg hd]
  | _ => rfl

/-- The value that a literal of these lexemes shows. -/
def ofLexemes : List Lexeme → Value
  | [.word w] => if w = "NULL" then .null else .bool (w = "TRUE")
  | [.number n] => .int n
  | [.symbol _, .number n] => .int (-n)
  | [.text s] => .text s
  | [.bytes bytes] => .blob bytes
  | _ => .null

private theorem ofLexemes_lexemes {v : Value} (hv : ∀ x, v ≠ .float x) :
    ofLexemes (v.lexemes d) = v.shown d := by
  cases v with
  | null => rfl
  | bool b =>
    unfold lexemes shown
    by_cases hd : d = .oracle
    · cases b <;> simp [hd, ofLexemes]
    · cases b <;> simp [hd, ofLexemes]
  | int n =>
    unfold lexemes shown
    by_cases hn : n < 0
    · simp only [if_pos hn, ofLexemes, int.injEq]
      omega
    · simp only [if_neg hn, ofLexemes, int.injEq]
      omega
  | float x => exact absurd rfl (hv x)
  | text s => rfl
  | blob bytes => rfl

/-- Two literals are the same only if they show the same value. -/
theorem literal_eq_literal_iff {v w : Value} (hv : ∀ x, v ≠ .float x) (hw : ∀ x, w ≠ .float x) :
    v.literal d = w.literal d ↔ v.shown d = w.shown d := by
  constructor
  · intro h
    have hlex := lexes_literal (d := d) hv [] nofun
    rw [h, lexes_literal hw [] nofun, Lexer.lex] at hlex
    have hlexemes : w.lexemes d = v.lexemes d := by simpa using hlex
    rw [← ofLexemes_lexemes hv, ← hlexemes, ofLexemes_lexemes hw]
  · intro h
    rw [← literal_shown v, h, literal_shown]

end Value

/-! ## Quoting -/

/-- In every dialect a scan reads a name and leaves a rest exactly where the quoted name stands
    before the rest and no other quote follows; it reads the literals of texts and bytes likewise.
    So quoted columns with the same text have the same table and name, and but for Oracle's booleans
    the same literals are of the same value. -/
theorem Dialect.scan_inverts_quoting (d : Dialect) :
    (∀ (name : String) (cs rest : List Char),
      Quoted.read? d.identifierQuote cs = some (name, rest) ↔
        cs = (d.quoteIdentifier name).toList ++ rest ∧ rest.head? ≠ some d.identifierQuote) ∧
    (∀ (s : Settings) (c c' : Column), s.quoteIdentifiers = true →
      (s.columnText d c = s.columnText d c' ↔ c.table = c'.table ∧ c.name = c'.name)) ∧
    (∀ (text : String) (rest : List Char), rest.head? ≠ some '\'' →
      Quoted.read? '\'' (((Value.text text).literal d).toList ++ rest) = some (text, rest)) ∧
    (∀ (bytes : List UInt8) (rest : List Char), rest.head? ≠ some '\'' →
      Hex.read? (((Value.blob bytes).literal d).toList ++ rest) = some (bytes, rest)) ∧
    (d ≠ .oracle → ∀ v w : Value, (∀ x, v ≠ .float x) → (∀ x, w ≠ .float x) →
      v.literal d = w.literal d → v = w) := by
  refine ⟨fun _ _ _ => Quoted.read?_eq_some_iff, fun s c c' hquote => ⟨fun h => ?_, ?_⟩,
    fun text _ => Quoted.read?_encode_append text, fun bytes _ => Value.read?_literal_blob bytes,
    fun hd v w hv hw h => ?_⟩
  · have htext : (s.columnText d c).toList ++ [] = (s.columnText d c').toList ++ [] := by rw [h]
    obtain ⟨htable, hname, -⟩ :=
      Settings.columnText_append_inj hquote htext ⟨nofun, nofun⟩ ⟨nofun, nofun⟩
    exact ⟨htable, hname⟩
  · rintro ⟨htable, hname⟩
    rw [Settings.columnText, Settings.columnText, htable, hname]
  · rw [← Value.shown_of_ne_oracle hd v, ← Value.shown_of_ne_oracle hd w]
    exact (Value.literal_eq_literal_iff hv hw).1 h

/-- A name that ends in a quote and a dot, columns with dots in their names, and literals. -/
theorem Dialect.scan_inverts_quoting_mysql :
    Quoted.read? '\x60' ((Dialect.mysql.quoteIdentifier "a\x60.").toList ++ ".b".toList) =
      some ("a\x60.", ".b".toList) ∧
    Settings.columnText { quoteIdentifiers := true } .mysql ⟨some "a.b", "c", .unknown⟩ ≠
      Settings.columnText { quoteIdentifiers := true } .mysql ⟨some "a", "b.c", .unknown⟩ ∧
    Quoted.read? '\'' (((Value.text "'").literal .mysql).toList ++ []) = some ("'", []) ∧
    Hex.read? (((Value.blob [0, 255]).literal .mysql).toList ++ [' ']) = some ([0, 255], [' ']) ∧
    (Value.bool true).literal .mysql ≠ (Value.int 1).literal .mysql := by
  obtain ⟨hname, hcolumn, htext, hblob, hliteral⟩ := Dialect.mysql.scan_inverts_quoting
  refine ⟨(hname _ _ _).2 ⟨rfl, by decide⟩, fun h => ?_, htext _ _ (by decide),
    hblob _ _ (by decide), fun h => ?_⟩
  · exact absurd ((hcolumn _ _ _ rfl).1 h).2 (by decide)
  · cases hliteral (by decide) (.bool true) (.int 1) nofun nofun h

end SqlExpr
