-- SUMMARY: Decimals as text, positionally or with an exponent.
import SqlExpr.Decimal.Shortest

/-!
# Decimal text

Two ways to write a decimal: all its places, or one digit before the point and a
power of ten behind it.
-/

namespace SqlExpr.Decimal

/-- The number of digits before the point in positional writing; zero or less for
    numbers below one tenth. -/
def pointPosition (d : Decimal) : Int := (Nat.repr d.digits).length + d.exponent

private def zeros (n : Nat) : String := String.ofList (List.replicate n '0')

/-- Every place of the number, without a fraction when it is whole. -/
def positional (d : Decimal) : String :=
  let digits := Nat.repr d.digits
  match d.exponent with
  | .ofNat n => digits ++ zeros n
  | .negSucc n =>
    let places := n + 1
    if places < digits.length then
      let cs := digits.toList
      let whole := digits.length - places
      String.ofList (cs.take whole) ++ "." ++ String.ofList (cs.drop whole)
    else "0." ++ zeros (places - digits.length) ++ digits

/-- One digit, the rest behind a point if there are more, and the exponent with its
    sign. -/
def scientific (d : Decimal) : String :=
  let exponent := d.pointPosition - 1
  let power := (if exponent < 0 then "e-" else "e+") ++ Nat.repr exponent.natAbs
  match (Nat.repr d.digits).toList with
  | [] => power
  | [c] => String.ofList [c] ++ power
  | c :: cs => String.ofList (c :: '.' :: cs) ++ power

/-- Positional writing that keeps at least one place behind the point, for numbers
    from `10 ^ (-5)` up to below `10 ^ 16`, and an exponent outside that range. -/
def compact (d : Decimal) : String :=
  if -5 < d.pointPosition && d.pointPosition ≤ 16 then
    if d.exponent < 0 then d.positional else d.positional ++ ".0"
  else d.scientific

end SqlExpr.Decimal
