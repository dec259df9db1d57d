-- SUMMARY: Double precision numbers by their bits: what they stand for, when they are equal, how they are written.
import SqlExpr.Decimal.Text

/-!
# Double precision numbers

A number is kept as its 64 bits, so that two of them are the same exactly when
nothing can tell them apart. `sameNumber` is the comparison of the numbers meant: a
NaN equals nothing and the two zeros are one.
-/

namespace SqlExpr

/-- The bits of a double precision number: sign, eleven bits of exponent, 52 bits of
    fraction. -/
structure Double where
  bits : UInt64
  deriving DecidableEq, Repr

namespace Double

/-- The number of fractions, `2 ^ 52`. -/
def fractions : Nat := 0x10000000000000

/-- The number of exponents, `2 ^ 11`. -/
def exponents : Nat := 0x800

def isNegative (x : Double) : Bool := x.bits.toNat / (fractions * exponents) == 1

def exponentField (x : Double) : Nat := x.bits.toNat / fractions % exponents

def fractionField (x : Double) : Nat := x.bits.toNat % fractions

def isNaN (x : Double) : Bool := x.exponentField == 2047 && x.fractionField != 0

def isInfinite (x : Double) : Bool := x.exponentField == 2047 && x.fractionField == 0

def isZero (x : Double) : Bool := x.exponentField == 0 && x.fractionField == 0

/-- The two stand for the same number. -/
def sameNumber (x y : Double) : Bool :=
  !x.isNaN && !y.isNaN && (x.bits == y.bits || (x.isZero && y.isZero))

/-- The integer `m` of the absolute value `m * 2 ^ q` of a finite number. -/
def mantissa (x : Double) : Nat :=
  if x.exponentField = 0 then x.fractionField else fractions + x.fractionField

/-- The power `q` of the absolute value `m * 2 ^ q` of a finite number. -/
def power (x : Double) : Int :=
  if x.exponentField = 0 then -1074 else (x.exponentField : Int) - 1075

/-! ## Shortest digits -/

/-- How many decimal places make the ends of the interval around `m * 2 ^ q` whole.
    The ends are multiples of `2 ^ (q - 2)`. -/
def places (x : Double) : Nat := (2 - x.power).toNat

/-- The numbers nearer to the absolute value of `x` than to any other double, in units
    of `10 ^ (- places)`. The gap below a power of two is half the gap above it. Ends
    round to an even mantissa. -/
def interval (x : Double) : Decimal.Interval :=
  let scale := fun (quarters : Nat) =>
    quarters * Nat.pow 2 (x.power - 2).toNat * Nat.pow 5 x.places
  let lowGap := if x.fractionField = 0 && 1 < x.exponentField then 1 else 2
  { low := scale (4 * x.mantissa - lowGap)
    mid := scale (4 * x.mantissa)
    high := scale (4 * x.mantissa + 2)
    closed := x.mantissa % 2 == 0 }

/-- The fewest digits that read back as the absolute value of `x`. -/
def shortest (x : Double) (tie : Decimal.Tie) : Decimal :=
  let d := x.interval.shortest tie
  { d with exponent := d.exponent - x.places }

def sign (x : Double) : String := if x.isNegative then "-" else ""

/-- The number in SQL: the shortest digits that read back, a tie rounded up, never an
    exponent. -/
def literal (x : Double) : String :=
  if x.isNaN then "NaN"
  else if x.isInfinite then x.sign ++ "inf"
  else if x.isZero then x.sign ++ "0"
  else x.sign ++ (x.shortest .upward).positional

/-- The number as a settings document would hold it: the shortest digits that read back,
    a tie rounded to even, always marked as a fraction or by an exponent. -/
def compact (x : Double) : String :=
  if x.isZero then x.sign ++ "0.0" else x.sign ++ (x.shortest .toEven).compact

end Double

end SqlExpr
