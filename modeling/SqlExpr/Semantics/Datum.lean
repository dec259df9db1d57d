-- SUMMARY: The data that expressions evaluate to, three-valued truth, the order of rows, and parts of strings.
import SqlExpr.Operator
import SqlExpr.Value.Basic

/-!
# Data and truth

Evaluation gives data: `NULL`, booleans, exact integers, and strings of characters or
of bytes. A truth value may be unknown, which `NULL` stands for.
-/

namespace SqlExpr

/-- A datum. -/
inductive Datum
  | null
  | bool (b : Bool)
  | int (n : Int)
  | text (cs : List Char)
  | bytes (bs : List UInt8)
  deriving DecidableEq, Repr

/-- The datum of a value. Floating point numbers are left out. -/
def Value.datum? : Value → Option Datum
  | .null => some .null
  | .bool b => some (.bool b)
  | .int n => some (.int n)
  | .float _ => none
  | .text s => some (.text s.toList)
  | .blob bytes => some (.bytes bytes)

/-! ## Truth -/

/-- A truth value; `none` is unknown. -/
abbrev Truth := Option Bool

namespace Truth

def and : Truth → Truth → Truth
  | some false, _ | _, some false => some false
  | some true, some true => some true
  | _, _ => none

def or : Truth → Truth → Truth
  | some true, _ | _, some true => some true
  | some false, some false => some false
  | _, _ => none

def not (t : Truth) : Truth := Option.map Bool.not t

def connect : Connective → Truth → Truth → Truth
  | .and => and
  | .or => or

end Truth

namespace Datum

/-- The datum that a truth value is. -/
def ofTruth : Truth → Datum
  | none => .null
  | some b => .bool b

/-- The truth value of a datum; `none` for numbers and strings, which have none. -/
def truth? : Datum → Option Truth
  | .null => some none
  | .bool b => some (some b)
  | _ => none

/-- The integer that a datum is, if it is not `NULL`; `none` for anything but numbers. -/
def int? : Datum → Option (Option Int)
  | .null => some none
  | .int n => some (some n)
  | _ => none

/-! ## Order -/

/-- The order of two data of one kind. Beside `NULL` it is unknown; data of two kinds have
    none at all. -/
def order? : Datum → Datum → Option (Option Ordering)
  | .null, _ | _, .null => some none
  | .bool a, .bool b => some (some (Ord.compare a b))
  | .int a, .int b => some (some (Ord.compare a b))
  | .text a, .text b => some (some (Ord.compare a b))
  | .bytes a, .bytes b => some (some (Ord.compare a b))
  | _, _ => none

end Datum

/-! ## Rows

The comparison of two rows depends only on the orders of the fields at the same positions, where
the order beside a `NULL` is unknown. -/

namespace RowOrder

/-- Rows differ if the fields at some position do; otherwise they are equal unless the order at
    some position is unknown. -/
def equality (orders : List (Option Ordering)) : Truth :=
  if orders.any (·.any (· != .eq)) then some false
  else if orders.any (·.isNone) then none
  else some true

/-- The first position that is not known to be equal decides. Equal rows are what the comparator
    says of equal values. -/
def ordering (op : Comparator) : List (Option Ordering) → Truth
  | [] => some (op.accepts .eq)
  | some .eq :: orders => ordering op orders
  | some o :: _ => some (op.strict.accepts o)
  | none :: _ => none

/-- The comparison of two rows. -/
def compare : Comparator → List (Option Ordering) → Truth
  | .eq, orders => equality orders
  | .ne, orders => (equality orders).not
  | op, orders => ordering op orders

/-- The orders of the fields at the same positions of two rows of one degree. -/
def orders? : List Datum → List Datum → Option (List (Option Ordering))
  | [], [] => some []
  | l :: left, r :: right => do return (← l.order? r) :: (← orders? left right)
  | _, _ => none

end RowOrder

/-! ## Parts of sequences

Strings of characters and of bytes are taken apart and put together by the same rules. Positions
are counted from 1 and may lie outside of the sequence. -/

namespace Splice

/-- The units at the positions from `start` up to but not including `stop`, as far as there are
    any. -/
def slice (u : List α) (start stop : Int) : List α :=
  (u.take (stop - 1).toNat).drop (start - 1).toNat

/-- The units from the position `start` on. -/
def sliceFrom (u : List α) (start : Int) : List α := u.drop (start - 1).toNat

/-- The sequence with `length` units from `start` on replaced by `v`. -/
def splice (u v : List α) (start length : Int) : List α :=
  u.take (start - 1).toNat ++ v ++ u.drop (start - 1 + length).toNat

/-- As `splice`, but a position outside of the sequence leaves it as it is. -/
def insert (u v : List α) (start length : Int) : List α :=
  if start < 1 ∨ (u.length : Int) < start then u
  else slice u 1 start ++ v ++ sliceFrom u (start + length)

end Splice

end SqlExpr
