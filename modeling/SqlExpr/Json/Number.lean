-- SUMMARY: Numbers in JSON texts: their parts as written, and whether they stand for an integer or a double.
import SqlExpr.Value.Double

/-!
# JSON numbers

A number is kept as it is written and evaluated only where its value is asked for.
Without fraction and exponent it stands for an integer as long as 64 bits hold it; any
other number stands for a double.
-/

namespace SqlExpr.Json

/-- A number as it is written. -/
structure Number where
  negative : Bool
  /-- The digits before the point. -/
  whole : List Nat
  /-- The digits behind the point, if there is one. -/
  fraction : Option (List Nat)
  /-- The exponent, if there is one: whether it is negative, and its digits. -/
  power : Option (Bool × List Nat)
  deriving DecidableEq, Repr

/-- What a number stands for. -/
inductive NumberValue
  | natural (n : UInt64)
  /-- The integer `-n`. -/
  | negative (n : Nat)
  | float (x : Double)
  deriving DecidableEq, Repr

namespace Number

/-- The number that digits write, the first digit counting most. -/
def ofDigits (digits : List Nat) : Nat := digits.foldl (fun n d => n * 10 + d) 0

/-- Append digits to `n` as long as the result is less than `2 ^ 64`. Returns the digits that
    are left over. -/
def takeDigits (n : Nat) : List Nat → Nat × List Nat
  | [] => (n, [])
  | d :: ds => if n * 10 + d < UInt64.size then takeDigits (n * 10 + d) ds else (n, d :: ds)

/-! ## Doubles -/

/-- Divide by `10 ^ e`, at most by `10 ^ 308` at a time. -/
def scaleDown (x : Float) (e : Nat) : Float :=
  if e ≤ 308 then x / Float.ofScientific 1 false e
  else if x == 0 then x
  else scaleDown (x / Float.ofScientific 1 false 308) (e - 308)
termination_by e

/-- The double for `n * 10 ^ e`, rounded once for `n` and once for every power of ten; `none` if
    it is too large. -/
def scale? (n : Nat) (e : Int) : Option Float :=
  let x := Float.ofNat n
  if n = 0 then some x
  else if e < 0 then some (scaleDown x e.natAbs)
  else if 308 < e then none
  else
    let y := x * Float.ofScientific 1 false e.natAbs
    if y.isInf then none else some y

/-- The double for `n * 10 ^ e` behind a sign. -/
def float? (negative : Bool) (n : Nat) (e : Int) : Option NumberValue :=
  (scale? n e).map fun x => .float ⟨(if negative then -x else x).toBits⟩

/-! ## Values -/

/-- The exponent as an integer. -/
def exponent (n : Number) : Int :=
  match n.power with
  | none => 0
  | some (true, digits) => -(ofDigits digits : Int)
  | some (false, digits) => ofDigits digits

/-- What the number stands for; `none` if it is too large. Digits that 64 bits do not hold are
    left out: those before the point count in the exponent, those behind it are lost. -/
def value? (n : Number) : Option NumberValue :=
  let (significand, left) := takeDigits 0 n.whole
  match n.fraction, n.power, left with
  | none, none, [] =>
    if !n.negative then some (.natural (UInt64.ofNat significand))
    else if significand = 0 || UInt64.size / 2 < significand then float? true significand 0
    else some (.negative significand)
  | fraction, _, left =>
    let digits := fraction.getD []
    let (significand, lost) := takeDigits significand digits
    let places : Int := (digits.length - lost.length : Nat)
    float? n.negative significand (left.length - places + n.exponent)

/-! ## Reading -/

/-- The digits at the start of a text, and the rest. -/
def digits : List Char → List Nat × List Char
  | [] => ([], [])
  | c :: cs =>
    if c.isDigit then
      let (ds, rest) := digits cs
      ((c.toNat - '0'.toNat) :: ds, rest)
    else ([], c :: cs)

/-- One or more digits. -/
def someDigits? (cs : List Char) : Option (List Nat × List Char) :=
  match digits cs with
  | ([], _) => none
  | (ds, rest) => some (ds, rest)

/-- The sign of a number: a minus or nothing. -/
def readMinus : List Char → Bool × List Char
  | '-' :: cs => (true, cs)
  | cs => (false, cs)

/-- The digits before the point: a zero alone, or digits that start with another one. -/
def readWhole? (cs : List Char) : Option (List Nat × List Char) :=
  match someDigits? cs with
  | some (0 :: _ :: _, _) => none
  | result => result

def readFraction? : List Char → Option (Option (List Nat) × List Char)
  | '.' :: cs => (someDigits? cs).map fun (ds, rest) => (some ds, rest)
  | cs => some (none, cs)

/-- The sign of an exponent: a plus, a minus or nothing. -/
def readSign : List Char → Bool × List Char
  | '-' :: cs => (true, cs)
  | '+' :: cs => (false, cs)
  | cs => (false, cs)

def readPower? : List Char → Option (Option (Bool × List Nat) × List Char)
  | c :: cs =>
    if c = 'e' || c = 'E' then
      let sign := readSign cs
      (someDigits? sign.2).map fun (ds, rest) => (some (sign.1, ds), rest)
    else some (none, c :: cs)
  | [] => some (none, [])

/-- The number at the start of a text, and the rest. -/
def read? (cs : List Char) : Option (Number × List Char) := do
  let (negative, cs) := readMinus cs
  let (whole, cs) ← readWhole? cs
  let (fraction, cs) ← readFraction? cs
  let (power, cs) ← readPower? cs
  return ({ negative, whole, fraction, power }, cs)

/-! ## Reading goes forward -/

theorem length_digits (cs : List Char) :
    (digits cs).1.length + (digits cs).2.length = cs.length := by
  induction cs with
  | nil => rfl
  | cons c cs ih =>
    simp only [digits]
    split
    · simp only [List.length_cons]; omega
    · simp

theorem length_lt_of_someDigits? {cs rest : List Char} {ds : List Nat}
    (h : someDigits? cs = some (ds, rest)) : rest.length < cs.length := by
  have hlen := length_digits cs
  unfold someDigits? at h
  split at h
  · cases h
  · next ds' rest' hne hd =>
    cases h
    cases ds with
    | nil => simp_all
    | cons d ds => simp only [hd, List.length_cons] at hlen; omega

theorem length_lt_of_readWhole? {cs rest : List Char} {ds : List Nat}
    (h : readWhole? cs = some (ds, rest)) : rest.length < cs.length := by
  unfold readWhole? at h
  split at h
  · cases h
  · exact length_lt_of_someDigits? h

theorem length_le_of_readFraction? {cs rest : List Char} {ds : Option (List Nat)}
    (h : readFraction? cs = some (ds, rest)) : rest.length ≤ cs.length := by
  unfold readFraction? at h
  split at h
  · obtain ⟨⟨ds', rest'⟩, hd, heq⟩ := Option.map_eq_some_iff.1 h
    cases heq
    have := length_lt_of_someDigits? hd
    simp only [List.length_cons]; omega
  · cases h; exact Nat.le_refl _

theorem length_readSign_le (cs : List Char) : (readSign cs).2.length ≤ cs.length := by
  unfold readSign
  split <;> simp

theorem length_le_of_readPower? {cs rest : List Char} {p : Option (Bool × List Nat)}
    (h : readPower? cs = some (p, rest)) : rest.length ≤ cs.length := by
  unfold readPower? at h
  split at h
  · next c cs =>
    split at h
    · obtain ⟨⟨ds, rest'⟩, hd, heq⟩ := Option.map_eq_some_iff.1 h
      cases heq
      have h1 := length_lt_of_someDigits? hd
      have h2 := length_readSign_le cs
      simp only [List.length_cons]; omega
    · cases h; exact Nat.le_refl _
  · cases h; exact Nat.le_refl _

/-- A number takes up at least one character. -/
theorem length_lt_of_read? {cs rest : List Char} {n : Number} (h : read? cs = some (n, rest)) :
    rest.length < cs.length := by
  have hm : (readMinus cs).2.length ≤ cs.length := by
    unfold readMinus
    split <;> simp
  simp only [read?, Option.bind_eq_bind, Option.bind_eq_some_iff, Option.pure_def,
    Option.some.injEq, Prod.exists] at h
  obtain ⟨whole, cs1, h1, fraction, cs2, h2, power, cs3, h3, heq⟩ := h
  cases heq
  have := length_lt_of_readWhole? h1
  have := length_le_of_readFraction? h2
  have := length_le_of_readPower? h3
  omega

end Number

end SqlExpr.Json
