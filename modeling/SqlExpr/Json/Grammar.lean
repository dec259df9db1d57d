-- SUMMARY: The grammar of JSON: the texts of a value, with any blanks, escapes and digits.
import SqlExpr.Json.Token

/-!
# JSON grammar

A `Tree` is a JSON value. `Tree.Spelled v cs` says that the characters `cs` write it, `Tree.Element`
allows blanks around it, and `Tree.Document` is that for a whole text. The rules are those of the
JSON standard; they know nothing of tokens or readers.
-/

namespace SqlExpr.Json

/-- A JSON value. Numbers are kept as they are written, strings by the characters they stand for. -/
inductive Tree
  | null
  | bool (b : Bool)
  | number (n : Number)
  /-- A string; `none` if its escapes stand for no characters. -/
  | string (s : Option String)
  | array (items : List Tree)
  /-- Keys may be repeated. -/
  | object (members : List (Option String × Tree))
  deriving Repr, Inhabited

/-! ## Numbers -/

namespace Number

/-- One or more digits as text. -/
structure Digits (digits : List Nat) (cs : List Char) : Prop where
  ne_nil : digits ≠ []
  lt_ten : ∀ d ∈ digits, d < 10
  text : cs = digits.map Nat.digitChar

/-- The digits before the point start with a zero only if that is all. -/
structure Whole (digits : List Nat) (cs : List Char) : Prop extends Digits digits cs where
  leading : digits.head? = some 0 → digits = [0]

inductive Fraction : Option (List Nat) → List Char → Prop
  | absent : Fraction none []
  | present {digits : List Nat} {cs : List Char} (h : Digits digits cs) :
    Fraction (some digits) ('.' :: cs)

/-- The sign of an exponent. A plus may be left out. -/
inductive Sign : (negative : Bool) → List Char → Prop
  | absent : Sign false []
  | plus : Sign false ['+']
  | minus : Sign true ['-']

inductive Power : Option (Bool × List Nat) → List Char → Prop
  | absent : Power none []
  | present {e : Char} {negative : Bool} {sign cs : List Char} {digits : List Nat}
    (he : e = 'e' ∨ e = 'E') (hsign : Sign negative sign) (h : Digits digits cs) :
    Power (some (negative, digits)) (e :: (sign ++ cs))

/-- The text of a number. -/
inductive Spelled : Number → List Char → Prop
  | mk {n : Number} {whole fraction power : List Char} (hwhole : Whole n.whole whole)
    (hfraction : Fraction n.fraction fraction) (hpower : Power n.power power) :
    Spelled n ((if n.negative then ['-'] else []) ++ (whole ++ (fraction ++ power)))

end Number

/-! ## Strings -/

/-- The text of a part of a string. -/
inductive Part.Spelled : Part → List Char → Prop
  | char {c : Char} (hquote : c ≠ '"') (hslash : c ≠ '\\') (hcontrol : 0x20 ≤ c.toNat) :
    Spelled (.char c) [c]
  | escape {e c : Char} (h : ofEscape? e = some c) : Spelled (.char c) ['\\', e]
  | unit {u : Nat} {a b c d : Char} (h : Hex.value? [a, b, c, d] = some u) :
    Spelled (.unit u) ['\\', 'u', a, b, c, d]

/-- The text of all parts of a string. -/
inductive Part.Body : List Part → List Char → Prop
  | nil : Body [] []
  | cons {p : Part} {ps : List Part} {cs rest : List Char} (hp : p.Spelled cs)
    (hrest : Body ps rest) : Body (p :: ps) (cs ++ rest)

/-- The text of a string. -/
inductive Quotation : Option String → List Char → Prop
  | mk {parts : List Part} {cs : List Char} (h : Part.Body parts cs) :
    Quotation ((Part.characters? parts).map String.ofList) ('"' :: (cs ++ ['"']))

namespace Part

private theorem characters?_map_char (cs : List Char) : characters? (cs.map .char) = some cs := by
  induction cs with
  | nil => rfl
  | cons c cs ih => simp [characters?, ih]

/-- The character stands for itself in a string. -/
def isPlain (c : Char) : Bool := c != '"' && c != '\\' && 0x20 ≤ c.toNat

theorem Body.of_plain {cs : List Char} (h : cs.all isPlain = true) : Body (cs.map .char) cs := by
  induction cs with
  | nil => exact .nil
  | cons c cs ih =>
    simp only [List.all_cons, isPlain, Bool.and_eq_true, bne_iff_ne, decide_eq_true_eq] at h
    obtain ⟨⟨⟨hquote, hslash⟩, hcontrol⟩, hcs⟩ := h
    exact .cons (.char hquote hslash hcontrol) (ih hcs)

end Part

/-- Text without quotes, backslashes and control characters needs no escapes. -/
theorem Quotation.of_plain {s : String} (h : s.toList.all Part.isPlain = true) :
    Quotation (some s) ('"' :: (s.toList ++ ['"'])) := by
  have hquote := Quotation.mk (Part.Body.of_plain h)
  rwa [Part.characters?_map_char, Option.map_some, String.ofList_toList] at hquote

/-! ## Values -/

/-- Spaces, tabs and line ends. -/
def Blanks (cs : List Char) : Prop := ∀ c ∈ cs, Token.isBlank c = true

instance (cs : List Char) : Decidable (Blanks cs) :=
  decidable_of_iff (cs.all Token.isBlank = true) List.all_eq_true

/-- The text of a key with blanks around it. -/
inductive Key : Option String → List Char → Prop
  | mk {key : Option String} {before cs after : List Char} (hbefore : Blanks before)
    (h : Quotation key cs) (hafter : Blanks after) : Key key (before ++ (cs ++ after))

theorem blanks_nil : Blanks [] := nofun

/-- A key without blanks around it. -/
theorem Key.of_quotation {key : Option String} {cs : List Char} (h : Quotation key cs) :
    Key key cs := by
  have hkey := Key.mk blanks_nil h blanks_nil
  rwa [List.nil_append, List.append_nil] at hkey

namespace Tree

mutual
/-- The text of a value. -/
inductive Spelled : Tree → List Char → Prop
  | null : Spelled .null ['n', 'u', 'l', 'l']
  | true : Spelled (.bool true) ['t', 'r', 'u', 'e']
  | false : Spelled (.bool false) ['f', 'a', 'l', 's', 'e']
  | number {n : Number} {cs : List Char} (h : n.Spelled cs) : Spelled (.number n) cs
  | string {s : Option String} {cs : List Char} (h : Quotation s cs) : Spelled (.string s) cs
  | array {items : List Tree} {cs : List Char} (h : Items items cs) :
    Spelled (.array items) ('[' :: (cs ++ [']']))
  | object {members : List (Option String × Tree)} {cs : List Char} (h : Members members cs) :
    Spelled (.object members) ('{' :: (cs ++ ['}']))

/-- The text of a value with blanks around it. -/
inductive Element : Tree → List Char → Prop
  | mk {v : Tree} {before cs after : List Char} (hbefore : Blanks before) (h : Spelled v cs)
    (hafter : Blanks after) : Element v (before ++ (cs ++ after))

/-- The values of an array with commas between them. -/
inductive Items : List Tree → List Char → Prop
  | none {cs : List Char} (h : Blanks cs) : Items [] cs
  | last {v : Tree} {cs : List Char} (hv : Element v cs) : Items [v] cs
  | more {v w : Tree} {vs : List Tree} {cs rest : List Char} (hv : Element v cs)
    (hrest : Items (w :: vs) rest) : Items (v :: w :: vs) (cs ++ ',' :: rest)

/-- The members of an object with commas between them. -/
inductive Members : List (Option String × Tree) → List Char → Prop
  | none {cs : List Char} (h : Blanks cs) : Members [] cs
  | last {k : Option String} {v : Tree} {key cs : List Char} (hk : Key k key)
    (hv : Element v cs) : Members [(k, v)] (key ++ ':' :: cs)
  | more {k : Option String} {v : Tree} {m : Option String × Tree}
    {ms : List (Option String × Tree)} {key cs rest : List Char} (hk : Key k key)
    (hv : Element v cs) (hrest : Members (m :: ms) rest) :
    Members ((k, v) :: m :: ms) (key ++ ':' :: (cs ++ ',' :: rest))
end

/-- A value without blanks around it. -/
theorem Element.of_spelled {v : Tree} {cs : List Char} (h : Spelled v cs) : Element v cs := by
  have helement := Element.mk blanks_nil h blanks_nil
  rwa [List.nil_append, List.append_nil] at helement

/-- The whole text is that of the value. -/
def Document (v : Tree) (text : String) : Prop := v.Element text.toList

end Tree

end SqlExpr.Json
