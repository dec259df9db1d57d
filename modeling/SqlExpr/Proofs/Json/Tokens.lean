-- SUMMARY: Texts of JSON values are cut into their tokens, and any value can be passed over.
import SqlExpr.Json.Grammar
import SqlExpr.Json.Skip

/-!
# Tokens of JSON values

`Tree.tokens` lists the tokens of a value. Whatever blanks, escapes and spellings of numbers a text
of the value has, it is cut into these tokens (`Tree.ofText_of_document`), and a reader passes over
exactly them (`Tree.skip?_tokens`).
-/

namespace SqlExpr.Json

/-! ## Tokens -/

namespace Tree

mutual
/-- The tokens of a value. -/
def tokens : Tree → List Token
  | .null => [.null]
  | .bool b => [.bool b]
  | .number n => [.number n]
  | .string s => [.string s]
  | .array items => .openBracket :: (itemTokens items ++ [.closeBracket])
  | .object members => .openBrace :: (memberTokens members ++ [.closeBrace])

/-- The tokens between the brackets of an array. -/
def itemTokens : List Tree → List Token
  | [] => []
  | [v] => v.tokens
  | v :: w :: vs => v.tokens ++ .comma :: itemTokens (w :: vs)

/-- The tokens between the braces of an object. -/
def memberTokens : List (Option String × Tree) → List Token
  | [] => []
  | [(k, v)] => .string k :: .colon :: v.tokens
  | (k, v) :: m :: ms => .string k :: .colon :: (v.tokens ++ .comma :: memberTokens (m :: ms))
end

end Tree

/-! ## Numbers -/

namespace Number

/-- No number goes on with the text. -/
def Stops (cs : List Char) : Prop :=
  ∀ c ∈ cs.head?, c.isDigit = false ∧ c ≠ '.' ∧ c ≠ 'e' ∧ c ≠ 'E'

variable {cs rest : List Char}

theorem stops_nil : Stops [] := nofun

theorem stops_cons {c : Char} (hdigit : c.isDigit = false) (hpoint : c ≠ '.') (he : c ≠ 'e')
    (hE : c ≠ 'E') : Stops (c :: cs) := by
  intro c' hc
  cases hc
  exact ⟨hdigit, hpoint, he, hE⟩

private theorem digits_of_head (h : ∀ c ∈ cs.head?, c.isDigit = false) : digits cs = ([], cs) := by
  cases cs with
  | nil => rfl
  | cons c cs => simp [digits, h c rfl]

theorem digits_append {ds : List Nat} (hds : ∀ d ∈ ds, d < 10)
    (hrest : ∀ c ∈ rest.head?, c.isDigit = false) :
    digits (ds.map Nat.digitChar ++ rest) = (ds, rest) := by
  induction ds with
  | nil => exact digits_of_head hrest
  | cons d ds ih =>
    obtain ⟨hd, hds⟩ := List.forall_mem_cons.1 hds
    have hvalue : d.digitChar.toNat - '0'.toNat = d := by
      rw [Nat.toNat_digitChar_of_lt_ten hd]
      exact Nat.add_sub_cancel_left 48 d
    simp only [List.map_cons, List.cons_append, digits, Nat.isDigit_digitChar, hd, decide_true,
      if_true, ih hds, hvalue]

theorem Digits.someDigits? {ds : List Nat} (h : Digits ds cs)
    (hrest : ∀ c ∈ rest.head?, c.isDigit = false) :
    someDigits? (cs ++ rest) = some (ds, rest) := by
  obtain ⟨hne, hlt, rfl⟩ := h
  rw [Number.someDigits?, digits_append hlt hrest]
  cases ds with
  | nil => exact absurd rfl hne
  | cons d ds => rfl

private theorem Whole.readWhole? {ds : List Nat} (h : Whole ds cs)
    (hrest : ∀ c ∈ rest.head?, c.isDigit = false) :
    readWhole? (cs ++ rest) = some (ds, rest) := by
  unfold Number.readWhole?
  rw [h.toDigits.someDigits? hrest]
  split
  · next heq =>
    cases heq
    cases h.leading rfl
  · rfl

theorem Digits.head {ds : List Nat} (h : Digits ds cs) :
    ∃ c cs', cs = c :: cs' ∧ c.isDigit = true := by
  obtain ⟨hne, hlt, rfl⟩ := h
  cases ds with
  | nil => exact absurd rfl hne
  | cons d ds =>
    refine ⟨d.digitChar, _, rfl, ?_⟩
    rw [Nat.isDigit_digitChar, decide_eq_true (hlt d List.mem_cons_self)]

private theorem Fraction.readFraction? {ds : Option (List Nat)} (h : Fraction ds cs)
    (hrest : ∀ c ∈ rest.head?, c.isDigit = false ∧ c ≠ '.') :
    readFraction? (cs ++ rest) = some (ds, rest) := by
  cases h with
  | absent =>
    unfold Number.readFraction?
    split
    · next heq => exact absurd rfl (hrest '.' (congrArg List.head? heq)).2
    · rfl
  | present h =>
    simp only [List.cons_append, Number.readFraction?]
    rw [h.someDigits? fun c hc => (hrest c hc).1]
    rfl

private theorem readSign_of_digit {c : Char} (hc : c.isDigit = true) :
    readSign (c :: cs) = (false, c :: cs) := by
  unfold readSign
  split
  · next heq =>
    cases heq
    cases hc
  · next heq =>
    cases heq
    cases hc
  · rfl

private theorem Sign.readSign {negative : Bool} {sign : List Char} {ds : List Nat}
    (h : Sign negative sign) (hcs : Digits ds cs) :
    readSign (sign ++ (cs ++ rest)) = (negative, cs ++ rest) := by
  cases h with
  | absent =>
    obtain ⟨c, cs', rfl, hc⟩ := hcs.head
    exact readSign_of_digit hc
  | plus => rfl
  | minus => rfl

private theorem Power.readPower? {p : Option (Bool × List Nat)} (h : Power p cs)
    (hrest : Stops rest) : readPower? (cs ++ rest) = some (p, rest) := by
  cases h with
  | absent =>
    cases rest with
    | nil => rfl
    | cons c rest =>
      obtain ⟨-, -, he, hE⟩ := hrest c rfl
      simp [Number.readPower?, he, hE]
  | @present e _ _ _ _ he hsign h =>
    have hpower : (decide (e = 'e') || decide (e = 'E')) = true := by simpa using he
    simp only [List.cons_append, List.append_assoc, Number.readPower?, hpower, if_true,
      hsign.readSign h, h.someDigits? fun c hc => (hrest c hc).1]
    rfl

/-- Neither a digit nor a point starts an exponent, or what follows it. -/
private theorem Power.head {p : Option (Bool × List Nat)} (h : Power p cs) (hrest : Stops rest) :
    ∀ c ∈ (cs ++ rest).head?, c.isDigit = false ∧ c ≠ '.' := by
  cases h with
  | absent => exact fun c hc => ⟨(hrest c hc).1, (hrest c hc).2.1⟩
  | present he _ _ =>
    intro c hc
    cases hc
    rcases he with rfl | rfl
    · decide
    · decide

private theorem Fraction.head {ds : Option (List Nat)} (h : Fraction ds cs)
    (hrest : ∀ c ∈ rest.head?, c.isDigit = false ∧ c ≠ '.') :
    ∀ c ∈ (cs ++ rest).head?, c.isDigit = false := by
  cases h with
  | absent => exact fun c hc => (hrest c hc).1
  | present _ =>
    intro c hc
    cases hc
    rfl

theorem readMinus_append {negative : Bool} {c : Char} (hc : c.isDigit = true) :
    readMinus ((if negative then ['-'] else []) ++ c :: cs) = (negative, c :: cs) := by
  cases negative with
  | true => rfl
  | false =>
    simp only [Bool.false_eq_true, if_false, List.nil_append]
    unfold readMinus
    split
    · next heq =>
      cases heq
      cases hc
    · rfl

/-- A number is read as it is written, up to where no number goes on. -/
private theorem Spelled.read? {n : Number} (h : Spelled n cs) (hrest : Stops rest) :
    read? (cs ++ rest) = some (n, rest) := by
  obtain ⟨hwhole, hfraction, hpower⟩ := h
  obtain ⟨c, cs', hcs, hc⟩ := hwhole.toDigits.head
  have hafter := hpower.head hrest
  simp only [Number.read?, List.append_assoc]
  rw [hcs, List.cons_append, readMinus_append hc, ← List.cons_append, ← hcs,
    hwhole.readWhole? (hfraction.head hafter)]
  simp only [Option.bind_eq_bind, Option.bind_some]
  rw [hfraction.readFraction? hafter]
  simp only [Option.bind_some]
  rw [hpower.readPower? hrest]
  rfl

private theorem Spelled.head {n : Number} (h : Spelled n cs) :
    ∃ c cs', cs = c :: cs' ∧ (c = '-' ∨ c.isDigit = true) := by
  obtain ⟨hwhole, -, -⟩ := h
  cases hnegative : (_ : Number).negative with
  | true => exact ⟨'-', _, rfl, .inl rfl⟩
  | false =>
    obtain ⟨c, cs', rfl, hc⟩ := hwhole.toDigits.head
    exact ⟨c, _, rfl, .inr hc⟩

end Number

/-! ## Strings -/

namespace Part

variable {cs rest : List Char}

private theorem ofEscape?_u : ofEscape? 'u' = none := rfl

theorem read?_char {c : Char} (hquote : c ≠ '"') (hslash : c ≠ '\\') (hcontrol : 0x20 ≤ c.toNat) :
    read? (c :: cs) = (read? cs).map fun (parts, rest) => (.char c :: parts, rest) := by
  rw [read?]
  · rw [if_neg (Nat.not_lt.2 hcontrol)]
  · exact hquote
  · exact fun _ _ _ _ _ h => absurd h hslash
  · exact fun _ _ h => absurd h hslash

private theorem read?_escape {e c : Char} (h : ofEscape? e = some c) :
    read? ('\\' :: e :: cs) = (read? cs).map fun (parts, rest) => (.char c :: parts, rest) := by
  have hu : e ≠ 'u' := by
    rintro rfl
    cases ofEscape?_u.symm.trans h
  rw [read?]
  · simp only [h, Option.bind_eq_bind, Option.bind_some]
    cases read? cs <;> rfl
  · exact fun _ _ _ _ _ he => absurd he hu

private theorem read?_unit {a b c d : Char} {u : Nat} (h : Hex.value? [a, b, c, d] = some u) :
    read? ('\\' :: 'u' :: a :: b :: c :: d :: cs) =
      (read? cs).map fun (parts, rest) => (.unit u :: parts, rest) := by
  rw [read?]
  simp only [h, Option.bind_eq_bind, Option.bind_some]
  cases read? cs <;> rfl

private theorem Spelled.read? {p : Part} (h : Spelled p cs) :
    read? (cs ++ rest) = (read? rest).map fun (parts, rest) => (p :: parts, rest) := by
  cases h with
  | char hquote hslash hcontrol => exact read?_char hquote hslash hcontrol
  | escape h => exact read?_escape h
  | unit h => exact read?_unit h

/-- The parts of a string are read up to its closing quote. -/
private theorem Body.read? {parts : List Part} (h : Body parts cs) :
    read? (cs ++ '"' :: rest) = some (parts, rest) := by
  induction h with
  | nil => rfl
  | cons hp _ ih => rw [List.append_assoc, hp.read?, ih]; rfl

end Part

/-! ## Cutting texts -/

namespace Token

variable {cs rest : List Char}

theorem ofChars_blanks {bs : List Char} (h : Blanks bs) : ofChars (bs ++ cs) = ofChars cs := by
  induction bs with
  | nil => rfl
  | cons b bs ih =>
    obtain ⟨hb, hbs⟩ := List.forall_mem_cons.1 h
    rw [List.cons_append, ofChars, if_pos hb, ih hbs]

theorem ofChars_of_next {c : Char} {t : Token} (hc : isBlank c = false)
    (h : next c cs = (t, rest)) : ofChars (c :: cs) = t :: ofChars rest := by
  rw [ofChars, hc, h]
  rfl

@[simp] theorem ofChars_openBrace : ofChars ('{' :: cs) = .openBrace :: ofChars cs :=
  ofChars_of_next rfl rfl

@[simp] theorem ofChars_closeBrace : ofChars ('}' :: cs) = .closeBrace :: ofChars cs :=
  ofChars_of_next rfl rfl

@[simp] theorem ofChars_openBracket : ofChars ('[' :: cs) = .openBracket :: ofChars cs :=
  ofChars_of_next rfl rfl

@[simp] theorem ofChars_closeBracket : ofChars (']' :: cs) = .closeBracket :: ofChars cs :=
  ofChars_of_next rfl rfl

@[simp] theorem ofChars_comma : ofChars (',' :: cs) = .comma :: ofChars cs :=
  ofChars_of_next rfl rfl

@[simp] theorem ofChars_colon : ofChars (':' :: cs) = .colon :: ofChars cs :=
  ofChars_of_next rfl rfl

private theorem next_of_number {c : Char} (hc : c = '-' ∨ c.isDigit = true) :
    next c cs = readNumber (c :: cs) := by
  unfold next
  split
  case h_11 => rfl
  all_goals rcases hc with hc | hc <;> cases hc

private theorem isBlank_of_number {c : Char} (hc : c = '-' ∨ c.isDigit = true) :
    isBlank c = false := by
  rw [Bool.eq_false_iff]
  intro hblank
  simp only [isBlank, Bool.or_eq_true, beq_iff_eq] at hblank
  rcases hblank with ((rfl | rfl) | rfl) | rfl
  all_goals rcases hc with hc | hc <;> cases hc

theorem ofChars_number {n : Number} (h : n.Spelled cs) (hrest : Number.Stops rest) :
    ofChars (cs ++ rest) = .number n :: ofChars rest := by
  have hread := h.read? hrest
  obtain ⟨c, cs', rfl, hc⟩ := h.head
  refine ofChars_of_next (isBlank_of_number hc) ?_
  rw [next_of_number hc, readNumber]
  exact hread ▸ rfl

theorem ofChars_string {s : Option String} (h : Quotation s cs) :
    ofChars (cs ++ rest) = .string s :: ofChars rest := by
  obtain ⟨h⟩ := h
  refine ofChars_of_next rfl ?_
  show readString ((_ ++ ['"']) ++ rest) = _
  rw [readString, List.append_assoc, List.singleton_append, h.read?]

theorem ofChars_key {s : Option String} (h : Key s cs) :
    ofChars (cs ++ ':' :: rest) = .string s :: .colon :: ofChars rest := by
  obtain ⟨hbefore, h, hafter⟩ := h
  rw [List.append_assoc, ofChars_blanks hbefore, List.append_assoc, ofChars_string h,
    ofChars_blanks hafter, ofChars_colon]

end Token

namespace Number

variable {cs rest : List Char}

theorem Stops.blanks {bs : List Char} (h : Blanks bs) (hrest : Stops rest) :
    Stops (bs ++ rest) := by
  cases bs with
  | nil => exact hrest
  | cons b bs =>
    have hb := h b List.mem_cons_self
    simp only [Token.isBlank, Bool.or_eq_true, beq_iff_eq] at hb
    rcases hb with ((rfl | rfl) | rfl) | rfl
    all_goals exact stops_cons (by decide) (by decide) (by decide) (by decide)

theorem stops_comma : Stops (',' :: cs) :=
  stops_cons (by decide) (by decide) (by decide) (by decide)

theorem stops_closeBracket : Stops (']' :: cs) :=
  stops_cons (by decide) (by decide) (by decide) (by decide)

theorem stops_closeBrace : Stops ('}' :: cs) :=
  stops_cons (by decide) (by decide) (by decide) (by decide)

end Number

namespace Tree

open Number (Stops)

mutual
/-- A text of a value is cut into the tokens of the value, up to where no number goes on. -/
theorem Spelled.ofChars {rest : List Char} : ∀ {v : Tree} {cs : List Char}, Spelled v cs →
    Stops rest → Token.ofChars (cs ++ rest) = v.tokens ++ Token.ofChars rest
  | _, _, .null, _ | _, _, .true, _ | _, _, .false, _ => Token.ofChars_of_next rfl rfl
  | _, _, .number h, hrest => Token.ofChars_number h hrest
  | _, _, .string h, _ => Token.ofChars_string h
  | _, _, .array h, _ => by simp [tokens, h.ofChars Number.stops_closeBracket]
  | _, _, .object h, _ => by simp [tokens, h.ofChars Number.stops_closeBrace]

theorem Element.ofChars {rest : List Char} : ∀ {v : Tree} {cs : List Char}, Element v cs →
    Stops rest → Token.ofChars (cs ++ rest) = v.tokens ++ Token.ofChars rest
  | _, _, .mk hbefore h hafter, hrest => by
    rw [List.append_assoc, Token.ofChars_blanks hbefore, List.append_assoc,
      h.ofChars (hrest.blanks hafter), Token.ofChars_blanks hafter]

theorem Items.ofChars {rest : List Char} : ∀ {vs : List Tree} {cs : List Char}, Items vs cs →
    Stops rest → Token.ofChars (cs ++ rest) = itemTokens vs ++ Token.ofChars rest
  | _, _, .none h, _ => Token.ofChars_blanks h
  | _, _, .last hv, hrest => hv.ofChars hrest
  | _, _, .more hv h, hrest => by
    simp [itemTokens, hv.ofChars Number.stops_comma, h.ofChars hrest]

theorem Members.ofChars {rest : List Char} : ∀ {ms : List (Option String × Tree)}
    {cs : List Char}, Members ms cs → Stops rest →
      Token.ofChars (cs ++ rest) = memberTokens ms ++ Token.ofChars rest
  | _, _, .none h, _ => Token.ofChars_blanks h
  | _, _, .last hk hv, hrest => by
    simp [memberTokens, Token.ofChars_key hk, hv.ofChars hrest]
  | _, _, .more hk hv h, hrest => by
    simp [memberTokens, Token.ofChars_key hk, hv.ofChars Number.stops_comma, h.ofChars hrest]
end

/-- A text of a value is cut into the tokens of the value. -/
theorem ofText_of_document {v : Tree} {text : String} (h : v.Document text) :
    Token.ofText text = v.tokens := by
  have hcut := Element.ofChars h Number.stops_nil
  rwa [List.append_nil, Token.ofChars, List.append_nil] at hcut

/-! ## Passing over values -/

open Token (skipValue skipRest)

/-- No value starts with the end of an array. -/
theorem exists_tokens_eq_cons (v : Tree) : ∃ t ts, v.tokens = t :: ts ∧ t ≠ .closeBracket := by
  cases v with
  | null | bool | number | string | array | object => exact ⟨_, _, rfl, by simp⟩

theorem exists_itemTokens_eq_cons (v : Tree) (vs : List Tree) :
    ∃ t ts, itemTokens (v :: vs) = t :: ts ∧ t ≠ .closeBracket := by
  obtain ⟨t, ts, hv, ht⟩ := v.exists_tokens_eq_cons
  cases vs with
  | nil => exact ⟨t, ts, hv, ht⟩
  | cons w vs => exact ⟨t, _, by rw [itemTokens, hv, List.cons_append], ht⟩

theorem exists_memberTokens_eq_cons (m : Option String × Tree)
    (ms : List (Option String × Tree)) :
    ∃ k ts, memberTokens (m :: ms) = .string k :: .colon :: ts := by
  cases ms with
  | nil => exact ⟨_, _, rfl⟩
  | cons m' ms => exact ⟨_, _, rfl⟩

private theorem skipValue_openBracket {nesting : List Token.Nesting} {t : Token} {ts : List Token}
    (ht : t ≠ .closeBracket) :
    skipValue nesting (.openBracket :: t :: ts) = skipValue (.array :: nesting) (t :: ts) := by
  rw [skipValue]
  intro ts' h
  cases h
  exact ht rfl

/-- The first member of an object is passed over as any later one. -/
private theorem skipValue_openBrace {nesting : List Token.Nesting} {k : Option String}
    {ts : List Token} :
    skipValue nesting (.openBrace :: .string k :: .colon :: ts) =
      skipRest (.object :: nesting) (.comma :: .string k :: .colon :: ts) := by
  rw [skipValue, skipRest]

mutual
/-- Skipping passes over the tokens of a value, inside of any unfinished arrays and objects. -/
theorem skipValue_tokens (nesting : List Token.Nesting) (ts : List Token) :
    ∀ v : Tree, skipValue nesting (v.tokens ++ ts) = skipRest nesting ts
  | .null | .bool _ | .number _ | .string _ => rfl
  | .array [] => by rw [tokens, itemTokens, List.nil_append, List.cons_append]; rfl
  | .array (v :: vs) => by
    obtain ⟨t, ts', hvs, ht⟩ := exists_itemTokens_eq_cons v vs
    have hitems := skipValue_itemTokens nesting ts (v :: vs) (List.cons_ne_nil v vs)
    rw [hvs] at hitems
    rw [tokens, hvs, List.cons_append, List.append_assoc, List.cons_append,
      skipValue_openBracket ht]
    exact hitems
  | .object [] => by rw [tokens, memberTokens, List.nil_append, List.cons_append]; rfl
  | .object (m :: ms) => by
    obtain ⟨k, ts', hms⟩ := exists_memberTokens_eq_cons m ms
    have hmembers := skipRest_memberTokens nesting ts (m :: ms) (List.cons_ne_nil m ms)
    rw [hms, List.cons_append, List.cons_append, ← skipValue_openBrace] at hmembers
    rw [tokens, hms, List.cons_append, List.append_assoc, List.cons_append, List.cons_append]
    exact hmembers

theorem skipValue_itemTokens (nesting : List Token.Nesting) (ts : List Token) :
    ∀ items : List Tree, items ≠ [] →
      skipValue (.array :: nesting) (itemTokens items ++ .closeBracket :: ts) =
        skipRest nesting ts
  | [v], _ => by rw [itemTokens, skipValue_tokens, skipRest]
  | v :: w :: vs, _ => by
    rw [itemTokens, List.append_assoc, skipValue_tokens, List.cons_append, skipRest,
      skipValue_itemTokens nesting ts (w :: vs) (List.cons_ne_nil w vs)]

theorem skipRest_memberTokens (nesting : List Token.Nesting) (ts : List Token) :
    ∀ members : List (Option String × Tree), members ≠ [] →
      skipRest (.object :: nesting) (.comma :: (memberTokens members ++ .closeBrace :: ts)) =
        skipRest nesting ts
  | [(k, v)], _ => by
    simp only [memberTokens, List.cons_append]
    rw [skipRest, skipValue_tokens, skipRest]
  | (k, v) :: m :: ms, _ => by
    simp only [memberTokens, List.cons_append, List.append_assoc]
    rw [skipRest, skipValue_tokens,
      skipRest_memberTokens nesting ts (m :: ms) (List.cons_ne_nil m ms)]
end

/-- A value of any nesting is passed over, and nothing of what follows it. -/
theorem skip?_tokens (v : Tree) (ts : List Token) : Token.skip? (v.tokens ++ ts) = some ts := by
  rw [Token.skip?, skipValue_tokens, skipRest]

end Tree

end SqlExpr.Json
