-- SUMMARY: Which constructs a dialect writes natively, with another function, or only after a rewrite.
import SqlExpr.Dialect.Basic
import SqlExpr.Operator

/-!
# Support for constructs

Some dialects lack `OVERLAY` or comparisons of whole rows. `Dialect.support` tells
for every construct and dialect whether it can be written as it is.
-/

namespace SqlExpr

/-- A construct that not every dialect has. -/
inductive Construct
  /-- `OVERLAY(s PLACING r FROM start [FOR length])`. -/
  | overlay
  /-- `=` and `<>` between rows. -/
  | rowEquality
  /-- `<`, `<=`, `>` and `>=` between rows. -/
  | rowOrdering
  deriving DecidableEq, Repr

def Construct.all : List Construct := [.overlay, .rowEquality, .rowOrdering]

def Construct.name : Construct → String
  | .overlay => "OVERLAY"
  | .rowEquality => "ROW EQUALITY"
  | .rowOrdering => "ROW ORDERING"

/-- The construct that a row comparison with the comparator is. -/
def Comparator.construct (op : Comparator) : Construct :=
  if op.isEquality then .rowEquality else .rowOrdering

inductive Support
  /-- The dialect has the construct. -/
  | native
  /-- The dialect has another function for it. -/
  | alternate
  /-- The construct is rewritten into simpler ones. -/
  | emulated
  deriving DecidableEq, Repr

namespace Dialect

def support : Dialect → Construct → Support
  | .h2, .overlay | .mariadb, .overlay | .mysql, .overlay => .alternate
  | .clickhouse, .overlay | .derby, .overlay | .duckdb, .overlay | .hsqldb, .overlay
  | .ignite, .overlay | .oracle, .overlay | .sqlite, .overlay | .trino, .overlay => .emulated
  | .derby, .rowEquality | .duckdb, .rowEquality | .firebird, .rowEquality => .emulated
  | .cubrid, .rowOrdering | .derby, .rowOrdering | .firebird, .rowOrdering
  | .oracle, .rowOrdering => .emulated
  | _, _ => .native

/-- The right-hand row of a native comparison needs a second pair of parentheses:
    `(a, b) = ((1, 2))`. -/
def rightRowNeedsParentheses (d : Dialect) : Bool := d == .oracle

/-- Only `OVERLAY` is ever replaced by a single other function. -/
theorem support_eq_alternate {d : Dialect} {c : Construct} (h : d.support c = .alternate) :
    c = .overlay := by
  revert h
  cases c <;> cases d <;> decide

/-- Plain SQL and PostgreSQL have every construct, and no other dialect has. -/
theorem support_native_iff {d : Dialect} :
    (∀ c, d.support c = .native) ↔ d = .generic ∨ d = .postgres := by
  constructor
  · intro h
    have hoverlay := h .overlay
    have hordering := h .rowOrdering
    cases d <;> simp_all [support]
  · rintro (rfl | rfl) c
    · cases c <;> rfl
    · cases c <;> rfl

end Dialect

end SqlExpr
