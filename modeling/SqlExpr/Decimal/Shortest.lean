-- SUMMARY: The decimal with the fewest digits inside an interval, nearest to a given point of it.

/-!
# Shortest decimals

A binary number is written in decimal by choosing, among the numbers that read back
as it, one with the fewest digits. On a fine enough decimal grid the number and the
ends of its interval are integers, so the search is exact integer arithmetic: the
coarsest grid of tens, hundreds, … that has a point in the interval wins, and on it
the point nearest to the number.
-/

namespace SqlExpr

/-- The number `digits * 10 ^ exponent`. -/
structure Decimal where
  digits : Nat
  exponent : Int
  deriving DecidableEq, Repr

namespace Decimal

/-- Which of two equally near neighbours is taken. -/
inductive Tie
  | upward
  | toEven
  deriving DecidableEq, Repr

/-- An interval around `mid`. -/
structure Interval where
  low : Nat
  mid : Nat
  high : Nat
  /-- The ends belong to the interval. -/
  closed : Bool
  deriving Repr

namespace Interval

def contains (i : Interval) (x : Nat) : Bool :=
  if i.closed then i.low ≤ x && x ≤ i.high else i.low < x && x < i.high

/-- The multiple of `10 ^ zeros` in the interval that is nearest to `mid`, divided by
    `10 ^ zeros`. Only the two neighbours of `mid` have to be looked at. -/
def nearest? (i : Interval) (tie : Tie) (zeros : Nat) : Option Nat :=
  let unit := Nat.pow 10 zeros
  let below := i.mid / unit
  let down := i.mid - below * unit
  let up := (below + 1) * unit - i.mid
  match i.contains (below * unit), i.contains ((below + 1) * unit) with
  | true, true =>
    if down < up then some below
    else if up < down then some (below + 1)
    else if tie == .toEven && below % 2 == 0 then some below
    else some (below + 1)
  | true, false => some below
  | false, true => some (below + 1)
  | false, false => none

/-- The shortest decimal that ends in at most `zeros` zeros. -/
def shortestFrom (i : Interval) (tie : Tie) : (zeros : Nat) → Decimal
  | 0 => ⟨i.mid, 0⟩
  | zeros + 1 =>
    match i.nearest? tie (zeros + 1) with
    | some digits => ⟨digits, Int.ofNat (zeros + 1)⟩
    | none => i.shortestFrom tie zeros

/-- The shortest decimal in the interval. No multiple of a power of ten beyond `mid`'s
    own length can lie in it without a shorter one doing so. -/
def shortest (i : Interval) (tie : Tie) : Decimal :=
  i.shortestFrom tie (Nat.repr i.mid).length

end Interval

end Decimal

end SqlExpr
