-- SUMMARY: Bytes as pairs of hexadecimal digits, written in upper case and read in either case.

/-!
# Hexadecimal text

Two digits to a byte, the high half first.
-/

namespace SqlExpr.Hex

/-- The upper-case digit for a value below sixteen. -/
def digit (n : Nat) : Char :=
  if n < 10 then Char.ofNat ('0'.toNat + n) else Char.ofNat ('A'.toNat + (n - 10))

/-- The value of a digit in either letter case. -/
def digitValue? (c : Char) : Option Nat :=
  if c.isDigit then some (c.toNat - '0'.toNat)
  else if 'A' ≤ c ∧ c ≤ 'F' then some (c.toNat - 'A'.toNat + 10)
  else if 'a' ≤ c ∧ c ≤ 'f' then some (c.toNat - 'a'.toNat + 10)
  else none

def encodeByte (b : UInt8) : List Char := [digit (b.toNat / 16), digit (b.toNat % 16)]

def encode (bytes : List UInt8) : List Char := bytes.flatMap encodeByte

/-- `none` unless the text is made of pairs of digits. -/
def decode : List Char → Option (List UInt8)
  | [] => some []
  | [_] => none
  | h :: l :: rest => do
    let high ← digitValue? h
    let low ← digitValue? l
    let bytes ← decode rest
    return UInt8.ofNat (high * 16 + low) :: bytes

/-- The number that a digit text writes, `none` if a character is no digit. -/
def value? (digits : List Char) : Option Nat :=
  digits.foldlM (fun n c => (digitValue? c).map (n * 16 + ·)) 0

private theorem digitValue?_digit {n : Nat} (h : n < 16) : digitValue? (digit n) = some n := by
  revert n; decide

theorem decode_encodeByte_append (b : UInt8) (rest : List Char) :
    decode (encodeByte b ++ rest) = (decode rest).map (b :: ·) := by
  have hb : b.toNat < 256 := b.toNat_lt
  have hsum : b.toNat / 16 * 16 + b.toNat % 16 = b.toNat := by omega
  have hhigh := digitValue?_digit (show b.toNat / 16 < 16 by omega)
  have hlow := digitValue?_digit (show b.toNat % 16 < 16 by omega)
  simp only [encodeByte, List.cons_append, List.nil_append, decode, hhigh, hlow,
    Option.bind_eq_bind, Option.bind_some, hsum, UInt8.ofNat_toNat]
  cases decode rest <;> rfl

theorem decode_encode (bytes : List UInt8) : decode (encode bytes) = some bytes := by
  induction bytes with
  | nil => rfl
  | cons b bytes ih =>
    show decode (encodeByte b ++ encode bytes) = _
    rw [decode_encodeByte_append, ih]
    rfl

end SqlExpr.Hex
