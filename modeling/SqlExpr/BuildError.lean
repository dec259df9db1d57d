-- SUMMARY: The reasons why an expression cannot be built, and their messages.
import SqlExpr.Expr.Kind

/-!
# Building errors
-/

namespace SqlExpr

/-- What a construct asks of an operand. -/
inductive Requirement
  /-- A value of one family. -/
  | ofFamily (f : Family)
  /-- A position or a length. -/
  | numericExpression
  deriving DecidableEq, Repr

def Requirement.description : Requirement → String
  | .ofFamily f => f.description
  | .numericExpression => "a numeric expression"

/-- Why an expression cannot be built from the operands it was given. -/
inductive BuildError
  /-- Two rows of different degree were compared. -/
  | arityMismatch (left right : Nat)
  /-- A row was given no field. -/
  | emptyRow
  /-- An operand has a type that the construct does not take. -/
  | typeConformance (construct : Kind) (operand : Nat) (expected : Requirement) (found : DataType)
  /-- The node has no operand at this position. -/
  | operandIndex (construct : Kind) (index arity : Nat)
  /-- An operand that has to be there was taken away. -/
  | missingOperand (construct : Kind) (index : Nat)
  deriving DecidableEq, Repr

def BuildError.message : BuildError → String
  | .arityMismatch left right =>
    s!"row arity mismatch: left row has {left} fields, right row has {right}"
  | .emptyRow => "a row needs at least one field"
  | .typeConformance construct operand expected found =>
    let name := construct.name
    let description := expected.description
    s!"{name}: operand {operand} must be {description}, found {found}"
  | .operandIndex construct index arity =>
    let name := construct.name
    s!"{name}: operand index {index} is out of range for arity {arity}"
  | .missingOperand construct index =>
    let name := construct.name
    s!"{name}: operand {index} is required"

/-! ## Building step by step -/

theorem Except.bind_eq_ok_iff {x : Except ε α} {f : α → Except ε β} {b : β} :
    x >>= f = .ok b ↔ ∃ a, x = .ok a ∧ f a = .ok b := by
  cases x <;> simp [bind, Except.bind]

theorem Except.bind_eq_error_iff {x : Except ε α} {f : α → Except ε β} {e : ε} :
    x >>= f = .error e ↔ x = .error e ∨ ∃ a, x = .ok a ∧ f a = .error e := by
  cases x <;> simp [bind, Except.bind]

theorem Except.check_bind_eq_ok_iff {x : Except ε Unit} {f : Unit → Except ε β} {b : β} :
    x >>= f = .ok b ↔ x = .ok () ∧ f () = .ok b := by
  cases x <;> simp [bind, Except.bind]

theorem Except.check_bind_eq_error_iff {x : Except ε Unit} {f : Unit → Except ε β} {e : ε} :
    x >>= f = .error e ↔ x = .error e ∨ x = .ok () ∧ f () = .error e := by
  cases x <;> simp [bind, Except.bind]

theorem Except.exists_ok_iff {x : Except ε α} : (∃ a, x = .ok a) ↔ ∀ e, x ≠ .error e := by
  cases x <;> simp

theorem Except.map_eq_ok_iff {x : Except ε α} {f : α → β} {b : β} :
    f <$> x = .ok b ↔ ∃ a, x = .ok a ∧ f a = b := by
  cases x <;> simp [Functor.map, Except.map]

theorem Except.map_eq_error_iff {x : Except ε α} {f : α → β} {e : ε} :
    f <$> x = .error e ↔ x = .error e := by
  cases x <;> simp [Functor.map, Except.map]

theorem Except.mapError_eq_ok_iff {x : Except ε α} {f : ε → ε'} {a : α} :
    x.mapError f = .ok a ↔ x = .ok a := by
  constructor
  · intro h
    cases x with
    | ok b =>
      cases h
      rfl
    | error e => cases h
  · rintro rfl
    rfl

end SqlExpr
