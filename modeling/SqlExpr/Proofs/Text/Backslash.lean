-- SUMMARY: Text literals are read back where no backslash is taken for an escape, and nowhere else.
import SqlExpr.Text.Backslash
import SqlExpr.Value.Basic

/-!
# Text literals and backslashes

Quotes are doubled in a text literal, backslashes are left as they are. So a literal is read back as
its text, up to its last character and no further, exactly if the dialect does not take backslashes
for escapes or the text has none (`Value.readText_literal_iff`). A text that ends in a backslash does
not end its literal.
-/

namespace SqlExpr

namespace Quoted

variable {q : Char} {unescape : Char → Char}

theorem scanEscaped_cons_of_ne {c : Char} (hquote : c ≠ q) (hslash : c ≠ '\\') (cs : List Char) :
    scanEscaped q unescape (c :: cs) =
      (scanEscaped q unescape cs).map fun (s, rest) => (c :: s, rest) := by
  cases cs <;> simp [scanEscaped, hquote, hslash]

/-- Without backslashes there are no escapes. -/
private theorem scanEscaped_escape (hq : q ≠ '\\') {s rest : List Char}
    (hrest : rest.head? ≠ some q)
    (hs : '\\' ∉ s) : scanEscaped q unescape (escape q s ++ q :: rest) = some (s, rest) := by
  induction s with
  | nil =>
    cases rest with
    | nil => simp [scanEscaped]
    | cons d rest => simp_all [scanEscaped]
  | cons c s ih =>
    rw [List.mem_cons, not_or] at hs
    by_cases hc : c = q
    · subst hc
      simp [escape, scanEscaped, ih hs.2, hq]
    · simp [escape, hc, scanEscaped_cons_of_ne hc (Ne.symm hs.1), ih hs.2]

/-- A text is at most as long as what it is read from allows: two of the quotes that were read make
    one character. An escape takes at least one character more than it stands for. -/
private theorem length_of_scanEscaped (hq : q ≠ '\\') {input s rest : List Char}
    (h : scanEscaped q unescape input = some (s, rest)) :
    ∃ taken, input = taken ++ q :: rest ∧ 2 * s.length + taken.count q ≤ 2 * taken.length ∧
      ('\\' ∈ taken → 2 * s.length + taken.count q < 2 * taken.length) := by
  fun_induction scanEscaped q unescape input generalizing s rest with
  | case1 | case3 => cases h
  | case2 | case6 =>
    cases h
    exact ⟨[], rfl, by simp, by simp⟩
  | case4 d tail ih =>
    obtain ⟨⟨s, rest⟩, hscan, heq⟩ := Option.map_eq_some_iff.1 h
    cases heq
    obtain ⟨taken, rfl, hle, -⟩ := ih hscan
    have hcount : ('\\' :: d :: taken).count q ≤ taken.count q + 1 := by
      rw [List.count_cons_of_ne hq.symm, List.count_cons]
      split <;> omega
    refine ⟨'\\' :: d :: taken, rfl, ?_, fun _ => ?_⟩
    · simp only [List.length_cons]; omega
    · simp only [List.length_cons]; omega
  | case5 tail _ ih =>
    obtain ⟨⟨s, rest⟩, hscan, heq⟩ := Option.map_eq_some_iff.1 h
    cases heq
    obtain ⟨taken, rfl, hle, hlt⟩ := ih hscan
    refine ⟨q :: q :: taken, rfl, ?_, fun hmem => ?_⟩
    · simp only [List.length_cons, List.count_cons_self]; omega
    · have := hlt (by simpa [hq.symm] using hmem)
      simp only [List.length_cons, List.count_cons_self]; omega
  | case7 c d tail hslash hquote ih =>
    obtain ⟨⟨s, rest⟩, hscan, heq⟩ := Option.map_eq_some_iff.1 h
    cases heq
    obtain ⟨taken, htaken, hle, hlt⟩ := ih hscan
    refine ⟨c :: taken, by rw [htaken]; rfl, ?_, fun hmem => ?_⟩
    · simp only [List.length_cons, List.count_cons_of_ne hquote]; omega
    · have := hlt (by simpa [Ne.symm hslash] using hmem)
      simp only [List.length_cons, List.count_cons_of_ne hquote]; omega

/-- Quoted, every quote of the text takes two quotes and every other character one character. -/
private theorem length_escape (s : List Char) :
    2 * s.length + (escape q s).count q = 2 * (escape q s).length := by
  induction s with
  | nil => rfl
  | cons c s ih =>
    unfold escape
    split
    · simp only [List.length_cons, List.count_cons_self]; omega
    · next hc => simp only [List.length_cons, List.count_cons_of_ne hc]; omega

private theorem mem_escape {c : Char} {s : List Char} (h : c ∈ s) : c ∈ escape q s := by
  induction s with
  | nil => cases h
  | cons a s ih =>
    unfold escape
    rcases List.mem_cons.1 h with rfl | h
    · split <;> simp_all
    · split <;> simp [ih h]

/-- A quoted text is read as itself exactly if it has no backslash, whatever escapes stand for. -/
private theorem scanEscaped_escape_iff (hq : q ≠ '\\') {s rest : List Char}
    (hrest : rest.head? ≠ some q) :
    scanEscaped q unescape (escape q s ++ q :: rest) = some (s, rest) ↔ '\\' ∉ s := by
  refine ⟨fun h hmem => ?_, scanEscaped_escape hq hrest⟩
  obtain ⟨taken, htaken, -, hlt⟩ := length_of_scanEscaped hq h
  cases List.append_cancel_right htaken
  have := hlt (mem_escape hmem)
  have := length_escape (q := q) s
  omega

end Quoted

namespace Value

variable {d : Dialect} {unescape : Char → Char}

/-- A text literal is read back as its text, and nothing of what follows is taken for a part of it,
    exactly if the dialect does not take backslashes for escapes or the text has none. -/
theorem readText_literal_iff (d : Dialect) (unescape : Char → Char) (s : String) {rest : List Char}
    (hrest : rest.head? ≠ some '\'') :
    d.readText unescape (((Value.text s).literal d).toList ++ rest) = some (s, rest) ↔
      (d.escapesText = true → '\\' ∉ s.toList) := by
  have hliteral : ((Value.text s).literal d).toList ++ rest =
      '\'' :: (Quoted.escape '\'' s.toList ++ '\'' :: rest) := by
    simp [literal, Quoted.toList_encode]
  have hread (read : Option (List Char × List Char)) :
      read.map (fun (t, rest) => (String.ofList t, rest)) = some (s, rest) ↔
        read = some (s.toList, rest) := by
    constructor
    · intro h
      obtain ⟨⟨t, rest'⟩, hread, heq⟩ := Option.map_eq_some_iff.1 h
      cases heq
      rw [hread, String.toList_ofList]
    · rintro rfl
      simp
  rw [hliteral, Dialect.readText, hread]
  cases hescapes : d.escapesText with
  | true => simpa [hescapes] using Quoted.scanEscaped_escape_iff (by decide) hrest
  | false => simpa [hescapes] using Quoted.scan_escape '\'' s.toList hrest

/-- Doubled quotes are read back where backslashes are escapes, too. -/
theorem readText_literal_iff_quotes :
    Dialect.readText id .mysql (((Value.text "it's '").literal .mysql).toList ++ " = b".toList) =
      some ("it's '", " = b".toList) :=
  (readText_literal_iff .mysql id "it's '" (by decide)).2 (by decide)

/-- The literal of a backslash does not end at its last character: it goes on up to the next literal,
    what was to be the text of that one is read as SQL. -/
theorem readText_literal_backslash :
    ((Value.text "\\").literal .mysql).toList ++ " AND b = ' OR 1 = 1 -- '".toList =
      "'\\' AND b = ' OR 1 = 1 -- '".toList ∧
    Dialect.readText id .mysql
        (((Value.text "\\").literal .mysql).toList ++ " AND b = ' OR 1 = 1 -- '".toList) =
      some ("' AND b = ", " OR 1 = 1 -- '".toList) := by
  decide

end Value

end SqlExpr
