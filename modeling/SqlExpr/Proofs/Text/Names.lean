-- SUMMARY: Quoted names can be told from what follows them.
import SqlExpr.Render.Renderer

/-!
# Quoted names

A quoted name ends where its closing quote is not followed by another quote. So a column
that is written with quotes determines its table and its name, and where it ends, as long
as neither a quote nor a dot follows (`Settings.columnText_append_inj`).
-/

namespace SqlExpr

/-- Two quoted texts with the same beginning are the same text, unless another quote follows. -/
private theorem Quoted.encode_append_inj {q : Char} {s t : String} {rest rest' : List Char}
    (h : (encode q s).toList ++ rest = (encode q t).toList ++ rest') (hrest : rest.head? ≠ some q)
    (hrest' : rest'.head? ≠ some q) : s = t ∧ rest = rest' := by
  simp only [toList_encode, List.cons_append, List.append_assoc, List.nil_append,
    List.cons.injEq, true_and] at h
  have hscan := scan_escape q s.toList hrest
  rw [h, scan_escape q t.toList hrest', Option.some.injEq, Prod.mk.injEq] at hscan
  obtain ⟨hs, hrest⟩ := hscan
  exact ⟨String.toList_inj.1 hs.symm, hrest.symm⟩

/-- Names are quoted by grave accents or double quotes. -/
theorem Dialect.identifierQuote_eq (d : Dialect) :
    d.identifierQuote = '\x60' ∨ d.identifierQuote = '"' := by
  cases d with
  | mysql | mariadb | clickhouse => exact .inl rfl
  | _ => exact .inr rfl

namespace Settings

variable {s : Settings} {d : Dialect}

theorem nameText_eq (hquote : s.quoteIdentifiers = true) (name : String) :
    s.nameText d name = Quoted.encode d.identifierQuote name := by
  rw [nameText, if_pos hquote, Dialect.quoteIdentifier]

/-- A quoted column starts with a quote. -/
theorem columnText_eq_cons (hquote : s.quoteIdentifiers = true) (c : Column) :
    ∃ text, (s.columnText d c).toList = d.identifierQuote :: text := by
  unfold columnText
  simp only [nameText_eq hquote]
  cases c.table with
  | none => exact ⟨_, Quoted.toList_encode _ _⟩
  | some table =>
    simp only [String.toList_append, Quoted.toList_encode]
    exact ⟨_, rfl⟩

/-- Two columns with the same beginning have the same table and name, unless a quote or a dot
    follows. -/
theorem columnText_append_inj (hquote : s.quoteIdentifiers = true) {c c' : Column}
    {rest rest' : List Char}
    (h : (s.columnText d c).toList ++ rest = (s.columnText d c').toList ++ rest')
    (hrest : rest.head? ≠ some d.identifierQuote ∧ rest.head? ≠ some '.')
    (hrest' : rest'.head? ≠ some d.identifierQuote ∧ rest'.head? ≠ some '.') :
    c.table = c'.table ∧ c.name = c'.name ∧ rest = rest' := by
  have hdot (name : List Char) (tail : List Char) :
      ('.' :: (name ++ tail)).head? ≠ some d.identifierQuote := by
    rcases d.identifierQuote_eq with hq | hq <;> rw [hq] <;> simp
  unfold columnText at h
  simp only [nameText_eq hquote] at h
  cases htable : c.table with
  | none =>
    cases htable' : c'.table with
    | none =>
      simp only [htable, htable'] at h
      obtain ⟨hname, hrest⟩ := Quoted.encode_append_inj h hrest.1 hrest'.1
      exact ⟨rfl, hname, hrest⟩
    | some table' =>
      simp only [htable, htable', String.toList_append, List.append_assoc] at h
      obtain ⟨-, hdotted⟩ := Quoted.encode_append_inj h hrest.1 (hdot _ _)
      exact absurd (hdotted ▸ rfl) hrest.2
  | some table =>
    cases htable' : c'.table with
    | none =>
      simp only [htable, htable', String.toList_append, List.append_assoc] at h
      obtain ⟨-, hdotted⟩ := Quoted.encode_append_inj h (hdot _ _) hrest'.1
      exact absurd (hdotted ▸ rfl) hrest'.2
    | some table' =>
      simp only [htable, htable', String.toList_append, List.append_assoc] at h
      obtain ⟨rfl, hnames⟩ := Quoted.encode_append_inj h (hdot _ _) (hdot _ _)
      have hnames := List.append_cancel_left hnames
      obtain ⟨hname, hrest⟩ := Quoted.encode_append_inj hnames hrest.1 hrest'.1
      exact ⟨rfl, hname, hrest⟩

end Settings

end SqlExpr
