-- SUMMARY: JSON texts as sequences of tokens, up to the first character that starts none.
import SqlExpr.Json.Number
import SqlExpr.Text.Hex

/-!
# JSON tokens

`Token.ofText` cuts a text into tokens. Where a text cannot go on as JSON, the sequence ends
with `Token.invalid`, so that a reader meets the fault only if it gets there.
-/

namespace SqlExpr.Json

/-! ## Strings -/

/-- A part of a string: a character, or one 16-bit unit given by its number. -/
inductive Part
  | char (c : Char)
  | unit (u : Nat)
  deriving DecidableEq, Repr

namespace Part

/-- The character that a backslash and a letter stand for. -/
def ofEscape? : Char → Option Char
  | '"' => some '"'
  | '\\' => some '\\'
  | '/' => some '/'
  | 'b' => some '\x08'
  | 'f' => some '\x0c'
  | 'n' => some '\n'
  | 'r' => some '\r'
  | 't' => some '\t'
  | _ => none

/-- The parts up to the closing quote, and the rest of the text. Control characters are written
    as escapes only. -/
def read? : List Char → Option (List Part × List Char)
  | [] => none
  | '"' :: cs => some ([], cs)
  | '\\' :: 'u' :: a :: b :: c :: d :: cs => do
    let u ← Hex.value? [a, b, c, d]
    let (parts, rest) ← read? cs
    return (.unit u :: parts, rest)
  | '\\' :: e :: cs => do
    let c ← ofEscape? e
    let (parts, rest) ← read? cs
    return (.char c :: parts, rest)
  | c :: cs =>
    if c.toNat < 0x20 then none
    else (read? cs).map fun (parts, rest) => (.char c :: parts, rest)

def isHighSurrogate (u : Nat) : Bool := 0xd800 ≤ u && u < 0xdc00

def isLowSurrogate (u : Nat) : Bool := 0xdc00 ≤ u && u < 0xe000

/-- The characters of a string. Two surrogates in a row make one character; a surrogate alone
    makes none. -/
def characters? : List Part → Option (List Char)
  | [] => some []
  | .char c :: parts => (characters? parts).map (c :: ·)
  | .unit high :: .unit low :: parts =>
    if isHighSurrogate high then
      if isLowSurrogate low then
        let c := Char.ofNat (0x10000 + (high - 0xd800) * 0x400 + (low - 0xdc00))
        (characters? parts).map (c :: ·)
      else none
    else if isLowSurrogate high then none
    else (characters? (.unit low :: parts)).map (Char.ofNat high :: ·)
  | .unit u :: parts =>
    if isHighSurrogate u || isLowSurrogate u then none
    else (characters? parts).map (Char.ofNat u :: ·)

theorem length_lt_of_read? {cs rest : List Char} {parts : List Part}
    (h : read? cs = some (parts, rest)) : rest.length < cs.length := by
  fun_induction read? cs generalizing parts rest with
  | case1 => cases h
  | case2 cs => cases h; simp
  | case3 a b c d cs ih =>
    simp only [Option.bind_eq_bind, Option.bind_eq_some_iff, Option.pure_def, Option.some.injEq,
      Prod.mk.injEq, Prod.exists] at h
    obtain ⟨_, _, parts', rest', hr, _, rfl⟩ := h
    have := ih hr
    simp only [List.length_cons]; omega
  | case4 e cs _ ih =>
    simp only [Option.bind_eq_bind, Option.bind_eq_some_iff, Option.pure_def, Option.some.injEq,
      Prod.mk.injEq, Prod.exists] at h
    obtain ⟨_, _, parts', rest', hr, _, rfl⟩ := h
    have := ih hr
    simp only [List.length_cons]; omega
  | case5 => cases h
  | case6 c cs _ _ _ _ ih =>
    obtain ⟨⟨parts', rest'⟩, hr, heq⟩ := Option.map_eq_some_iff.1 h
    cases heq
    have := ih hr
    simp only [List.length_cons]; omega

end Part

/-! ## Tokens -/

inductive Token
  | openBrace
  | closeBrace
  | openBracket
  | closeBracket
  | comma
  | colon
  | null
  | bool (b : Bool)
  | number (n : Number)
  /-- A string; `none` if its escapes stand for no characters. -/
  | string (s : Option String)
  /-- The text cannot go on as JSON. -/
  | invalid
  deriving DecidableEq, Repr

namespace Token

/-- The characters between tokens. -/
def isBlank (c : Char) : Bool := c == ' ' || c == '\n' || c == '\t' || c == '\r'

def readString (cs : List Char) : Token × List Char :=
  match Part.read? cs with
  | some (parts, rest) => (.string ((Part.characters? parts).map String.ofList), rest)
  | none => (.invalid, [])

def readNumber (cs : List Char) : Token × List Char :=
  match Number.read? cs with
  | some (n, rest) => (.number n, rest)
  | none => (.invalid, [])

/-- The token that starts with the character `c`, and what follows it. -/
def next (c : Char) (cs : List Char) : Token × List Char :=
  match c, cs with
  | '{', cs => (.openBrace, cs)
  | '}', cs => (.closeBrace, cs)
  | '[', cs => (.openBracket, cs)
  | ']', cs => (.closeBracket, cs)
  | ',', cs => (.comma, cs)
  | ':', cs => (.colon, cs)
  | '"', cs => readString cs
  | 'n', 'u' :: 'l' :: 'l' :: cs => (.null, cs)
  | 't', 'r' :: 'u' :: 'e' :: cs => (.bool true, cs)
  | 'f', 'a' :: 'l' :: 's' :: 'e' :: cs => (.bool false, cs)
  | c, cs => readNumber (c :: cs)

theorem length_readNumber_lt (c : Char) (cs : List Char) :
    (readNumber (c :: cs)).2.length < (c :: cs).length := by
  unfold readNumber
  split
  · next h => exact Number.length_lt_of_read? h
  · simp

theorem length_readString_le (cs : List Char) : (readString cs).2.length ≤ cs.length := by
  unfold readString
  split
  · next h => exact Nat.le_of_lt (Part.length_lt_of_read? h)
  · simp

theorem length_next_lt (c : Char) (cs : List Char) :
    (next c cs).2.length < (c :: cs).length := by
  unfold next
  split
  case h_7 => have := length_readString_le cs; simp only [List.length_cons]; omega
  case h_11 => exact length_readNumber_lt c cs
  all_goals simp only [List.length_cons]; omega

/-- The tokens of a text. -/
def ofChars : List Char → List Token
  | [] => []
  | c :: cs => if isBlank c then ofChars cs else (next c cs).1 :: ofChars (next c cs).2
termination_by cs => cs.length
decreasing_by
  · simp
  · exact length_next_lt c cs

def ofText (text : String) : List Token := ofChars text.toList

end Token

end SqlExpr.Json
