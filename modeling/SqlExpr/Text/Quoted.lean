-- SUMMARY: Text between quotes in which the quote itself is written twice, and the scan that reads it back.

/-!
# Quoted text

A text is quoted by writing a quote character before and after it and every quote
inside it twice. `scan` reads the text after the opening quote. The main statement
`scan_escape` says that it recovers what was quoted and stops where the quotation
ends.
-/

namespace SqlExpr.Quoted

/-- The text with every `quote` doubled. -/
def escape (quote : Char) : List Char → List Char
  | [] => []
  | c :: cs => if c = quote then quote :: quote :: escape quote cs else c :: escape quote cs

/-- The text between two quotes, its own quotes doubled. -/
def encode (quote : Char) (s : String) : String :=
  String.ofList (quote :: (escape quote s.toList ++ [quote]))

/-- Read up to the first quote that is not doubled. Returns the text in front of it,
    doubled quotes taken once, and what follows it; `none` if no such quote comes. -/
def scan (quote : Char) : List Char → Option (List Char × List Char)
  | [] => none
  | [c] => if c = quote then some ([], []) else none
  | c :: d :: rest =>
    if c = quote then
      if d = quote then (scan quote rest).map fun (s, rest) => (quote :: s, rest)
      else some ([], d :: rest)
    else (scan quote (d :: rest)).map fun (s, rest) => (c :: s, rest)

@[simp] theorem escape_nil (q : Char) : escape q [] = [] := rfl

theorem escape_append (q : Char) (s t : List Char) :
    escape q (s ++ t) = escape q s ++ escape q t := by
  induction s with
  | nil => rfl
  | cons c s ih => simp only [List.cons_append, escape]; split <;> simp [ih]

theorem toList_encode (q : Char) (s : String) :
    (encode q s).toList = q :: (escape q s.toList ++ [q]) := by
  simp [encode]

private theorem scan_cons_of_ne {q c : Char} (h : c ≠ q) (cs : List Char) :
    scan q (c :: cs) = (scan q cs).map fun (s, rest) => (c :: s, rest) := by
  cases cs <;> simp [scan, h]

/-- Reading a quoted text stops at its closing quote and gives the text back,
    unless another quote follows at once. -/
theorem scan_escape (q : Char) (s : List Char) {rest : List Char} (h : rest.head? ≠ some q) :
    scan q (escape q s ++ q :: rest) = some (s, rest) := by
  induction s with
  | nil =>
    cases rest with
    | nil => simp [scan]
    | cons d rest => simp_all [scan]
  | cons c s ih =>
    by_cases hc : c = q
    · subst hc; simp [escape, scan, ih]
    · simp [escape, hc, scan_cons_of_ne hc, ih]

end SqlExpr.Quoted
