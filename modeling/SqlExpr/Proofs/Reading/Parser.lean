-- SUMMARY: A reader of SQL expressions by operator precedence, token by token.
import SqlExpr.Proofs.Reading.Token

/-!
# Reading by precedence

The reader goes over the tokens once. It keeps a stack of what has been read before the
present operand: operators that wait for their right operand, and brackets that are not
closed yet. An operator takes what binds at least as tightly as itself, and a closing
bracket takes everything since it was opened. Operators of one level group to the left, a
chain of `||` is one concatenation, and parentheses group or form rows.

From the loosest to the tightest the operators are `OR`, `AND`, `NOT`, comparisons, and
`+`, `-` and `||` together.
-/

namespace SqlExpr.Reader

/-! ## The stack -/

/-- An operator that waits for its right operand. -/
inductive Pending
  | logical (op : Connective) (left : Expr)
  | not
  | compare (op : Comparator) (left : Expr)
  | arith (op : ArithOp) (left : Expr)
  | concat (args : List Expr)
  deriving Repr

/-- A bracket that is not closed yet, with what is complete inside of it. -/
inductive Bracket
  /-- Parentheses, behind the name of a function or not. -/
  | items (f : Option Builtin) (es : List Expr)
  /-- The parentheses of `OVERLAY`. -/
  | overlay (operands : List Expr)
  deriving Repr

/-- An entry of the stack. -/
inductive Frame
  | pending (p : Pending)
  | bracket (b : Bracket)
  deriving Repr

inductive State
  /-- An operand comes next. -/
  | operand (stack : List Frame)
  /-- The parenthesis that opens the bracket comes next. -/
  | opening (stack : List Frame) (b : Bracket)
  /-- An operand is complete. -/
  | operator (stack : List Frame) (e : Expr)
  deriving Repr

/-! ## Operators -/

/-- How tightly an operator binds. -/
def Pending.level : Pending → Nat
  | .logical .or _ => 1
  | .logical .and _ => 2
  | .not => 3
  | .compare _ _ => 4
  | .arith _ _ | .concat _ => 5

/-- The comparison of two operands, which are scalars unless both are rows. -/
def comparison (op : Comparator) : (left right : Expr) → Expr
  | .row left, .row right => .rowCompare op left right
  | left, right => .compare op left right

/-- The operator with its right operand. -/
def Pending.apply : Pending → (right : Expr) → Expr
  | .logical op left, right => .logical op left right
  | .not, right => .not right
  | .compare op left, right => comparison op left right
  | .arith op left, right => .arith op left right
  | .concat args, right => .call .concat (args ++ [right])

/-- The operator between two operands that a token stands for, given the left one. -/
def operator? : Token → Option (Expr → Pending)
  | .compare op => some (.compare op)
  | .arith op => some (.arith op)
  | .concat => some fun left => .concat [left]
  | .keyword .and => some (.logical .and)
  | .keyword .or => some (.logical .or)
  | _ => none

/-- Operators that bind at least at level `p` take the operand that is complete. -/
def reduce (p : Nat) : (stack : List Frame) → Expr → List Frame × Expr
  | .pending q :: stack, e =>
    if p ≤ q.level then reduce p stack (q.apply e) else (.pending q :: stack, e)
  | stack, e => (stack, e)

/-- How tightly the operator binds that waits for the next operand, if there is one. -/
def topLevel : List Frame → Nat
  | .pending q :: _ => q.level
  | _ => 0

/-! ## Brackets -/

/-- What a closing parenthesis makes of a bracket and the operand in front of it. Parentheses
    around one expression group, around several they form a row. -/
def Bracket.close? : Bracket → (last : Expr) → Option Expr
  | .items none [], last => some last
  | .items none es, last => some (.row (es ++ [last]))
  | .items (some f) es, last => some (.call f (es ++ [last]))
  | .overlay [source, replacement], last => some (.overlay source replacement last none)
  | .overlay [source, replacement, start], last =>
    some (.overlay source replacement start (some last))
  | .overlay _, _ => none

/-- What a comma or keyword makes of a bracket and the operand in front of it. -/
def Bracket.next? : Bracket → Token → (last : Expr) → Option Bracket
  | .items f es, .comma, last => some (.items f (es ++ [last]))
  | .overlay [], .keyword .placing, last => some (.overlay [last])
  | .overlay [source], .keyword .from, last => some (.overlay [source, last])
  | .overlay [source, replacement], .keyword .for, last =>
    some (.overlay [source, replacement, last])
  | _, _, _ => none

/-! ## The reader -/

/-- Read a token where an operand comes next. -/
def readOperand (stack : List Frame) : Token → Option State
  | .lparen => some (.operand (.bracket (.items none []) :: stack))
  | .column c => some (.operator stack (.column c))
  | .constant c => some (.operator stack (.constant c))
  | .function f => some (.opening stack (.items (some f) []))
  | .keyword .overlay => some (.opening stack (.overlay []))
  | .keyword .not =>
    if topLevel stack ≤ Pending.not.level then some (.operand (.pending .not :: stack)) else none
  | .rparen =>
    -- the only bracket that may be empty is that of a call
    match stack with
    | .bracket (.items (some f) []) :: stack => some (.operator stack (.call f []))
    | _ => none
  | _ => none

/-- Read a token behind the operand `e`. -/
def readOperator (stack : List Frame) (e : Expr) (t : Token) : Option State :=
  match t, stack with
  | .concat, .pending (.concat args) :: stack =>
    some (.operand (.pending (.concat (args ++ [e])) :: stack))
  | t, stack =>
    match operator? t with
    | some operator =>
      let (stack, left) := reduce ((operator e).level) stack e
      some (.operand (.pending (operator left) :: stack))
    | none =>
      match reduce 0 stack e with
      | (.bracket b :: stack, last) =>
        if t = .rparen then (b.close? last).map (.operator stack)
        else (b.next? t last).map fun b => .operand (.bracket b :: stack)
      | _ => none

def step : State → Token → Option State
  | .operand stack, t => readOperand stack t
  | .opening stack b, .lparen => some (.operand (.bracket b :: stack))
  | .opening _ _, _ => none
  | .operator stack e, t => readOperator stack e t

def run : State → List Token → Option State
  | s, [] => some s
  | s, t :: ts =>
    match step s t with
    | some s => run s ts
    | none => none

/-- The expression that the tokens are, all of them together. -/
def parse (ts : List Token) : Option Expr :=
  match run (.operand []) ts with
  | some (.operator stack e) =>
    match reduce 0 stack e with
    | ([], e) => some e
    | _ => none
  | _ => none

/-- The expression that a reader of SQL takes writes for, all of them together. -/
def read (ws : List Write) : Option Expr := parse (ws.flatMap Write.tokens)

/-! ## What a step does -/

theorem run_trans {s s' s'' : State} {ts us : List Token} (h : run s ts = some s')
    (h' : run s' us = some s'') : run s (ts ++ us) = some s'' := by
  induction ts generalizing s with
  | nil =>
    cases h
    exact h'
  | cons t ts ih =>
    simp only [run, List.cons_append] at h ⊢
    cases hstep : step s t with
    | none => rw [hstep] at h; cases h
    | some s₁ => rw [hstep] at h; exact ih h

theorem run_singleton {s s' : State} {t : Token} (h : step s t = some s') :
    run s [t] = some s' := by
  rw [run, h]
  rfl

theorem run_step {s s' s'' : State} {ts : List Token} {t : Token} (h : run s ts = some s')
    (h' : step s' t = some s'') : run s (ts ++ [t]) = some s'' :=
  run_trans h (run_singleton h')

theorem reduce_pending {p : Nat} {q : Pending} (h : p ≤ q.level) (stack : List Frame)
    (e : Expr) : reduce p (.pending q :: stack) e = reduce p stack (q.apply e) := by
  rw [reduce, if_pos h]

/-- An operator that binds tighter than the one on the stack leaves it there. -/
theorem reduce_of_topLevel_lt {p : Nat} {stack : List Frame} (h : topLevel stack < p)
    (e : Expr) : reduce p stack e = (stack, e) := by
  cases stack with
  | nil => rfl
  | cons frame stack =>
    cases frame with
    | bracket b => rfl
    | pending q =>
      have hq : ¬p ≤ q.level := Nat.not_le.2 h
      rw [reduce, if_neg hq]

theorem step_operator {t : Token} {operator : Expr → Pending} {stack stack' : List Frame}
    {e left : Expr} (hop : operator? t = some operator) (ht : t ≠ .concat)
    (h : reduce ((operator e).level) stack e = (stack', left)) :
    step (.operator stack e) t = some (.operand (.pending (operator left) :: stack')) := by
  simp only [step, readOperator]
  split
  · exact absurd rfl ht
  · simp only [hop, h]

/-- The first `||` of a chain. -/
theorem step_concat {stack : List Frame} (h : topLevel stack < 5) (e : Expr) :
    step (.operator stack e) .concat = some (.operand (.pending (.concat [e]) :: stack)) := by
  simp only [step, readOperator]
  split
  · exact absurd h (Nat.lt_irrefl 5)
  · simp only [operator?, Pending.level, reduce_of_topLevel_lt h]

theorem step_concat_again (args : List Expr) (stack : List Frame) (e : Expr) :
    step (.operator (.pending (.concat args) :: stack) e) .concat =
      some (.operand (.pending (.concat (args ++ [e])) :: stack)) := rfl

theorem step_next {t : Token} {b b' : Bracket} {stack stack' : List Frame} {e last : Expr}
    (h : reduce 0 stack e = (.bracket b :: stack', last)) (ht : operator? t = none)
    (hparen : t ≠ .rparen) (hb : b.next? t last = some b') :
    step (.operator stack e) t = some (.operand (.bracket b' :: stack')) := by
  simp only [step, readOperator]
  split
  · cases ht
  · simp only [ht, h, if_neg hparen, hb, Option.map_some]

theorem step_close {b : Bracket} {stack stack' : List Frame} {e last e' : Expr}
    (h : reduce 0 stack e = (.bracket b :: stack', last)) (hb : b.close? last = some e') :
    step (.operator stack e) .rparen = some (.operator stack' e') := by
  simp only [step, readOperator, operator?, h, if_true, hb, Option.map_some]

theorem parse_of_run {ts : List Token} {stack : List Frame} {e e' : Expr}
    (h : run (.operand []) ts = some (.operator stack e)) (he : reduce 0 stack e = ([], e')) :
    parse ts = some e' := by
  simp only [parse, h, he]

end SqlExpr.Reader
