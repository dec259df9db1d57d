-- SUMMARY: How the reader takes each phrase that a rendering is made of, whatever stands before it.
import SqlExpr.Proofs.Reading.Parser

/-!
# Phrases

A phrase with parentheses of its own is read as an operand wherever one can stand
(`ReadsOperand`). A comparison or a `NOT` is read as a whole only where no operator before
it binds tighter than `AND` (`ReadsCondition`), and what it leaves on the stack is taken
together by the next operator or bracket. Each production of the renderer is one lemma.
-/

namespace SqlExpr.Reader

/-- Wherever an operand can stand, the tokens are read as the operand `t`. -/
def ReadsOperand (ts : List Token) (t : Expr) : Prop :=
  ∀ stack, run (.operand stack) ts = some (.operator stack t)

/-- To a connective or a bracket, the stack with `e` at its end is the stack `base` with the
    condition `t` at its end. -/
def Settled (base : List Frame) (t : Expr) (s : State) : Prop :=
  ∃ stack e, s = .operator stack e ∧ ∀ p ≤ 2, reduce p stack e = reduce p base t

/-- Behind connectives and brackets, the tokens are read as the condition `t`. -/
def ReadsCondition (ts : List Token) (t : Expr) : Prop :=
  ∀ stack, topLevel stack ≤ 2 →
    ∃ s, run (.operand stack) ts = some s ∧ Settled stack t s

variable {ts us : List Token} {t u : Expr}

theorem ReadsOperand.condition (h : ReadsOperand ts t) : ReadsCondition ts t :=
  fun stack _ => ⟨_, h stack, stack, t, rfl, fun _ _ => rfl⟩

/-! ## Operators -/

theorem ReadsOperand.column (c : Column) : ReadsOperand [.column c] (.column c) :=
  fun _ => rfl

theorem ReadsOperand.constant (c : Constant) : ReadsOperand [.constant c] (.constant c) :=
  fun _ => rfl

theorem ReadsCondition.group (h : ReadsCondition ts t) :
    ReadsOperand ([.lparen] ++ ts ++ [.rparen]) t := by
  intro stack
  obtain ⟨s, hrun, stack', e, rfl, hreduce⟩ :=
    h (.bracket (.items none []) :: stack) (Nat.zero_le 2)
  refine run_step (run_trans rfl hrun) ?_
  exact step_close (hreduce 0 (Nat.zero_le 2)) rfl

theorem ReadsOperand.arith (op : ArithOp) (hl : ReadsOperand ts t) (hr : ReadsOperand us u) :
    ReadsOperand ([.lparen] ++ ts ++ [.arith op] ++ us ++ [.rparen]) (.arith op t u) := by
  intro stack
  let inner : List Frame := .bracket (.items none []) :: stack
  have hop : step (.operator inner t) (.arith op) =
      some (.operand (.pending (.arith op t) :: inner)) :=
    step_operator rfl (by simp) rfl
  have hclose : step (.operator (.pending (.arith op t) :: inner) u) .rparen =
      some (.operator stack (.arith op t u)) :=
    step_close rfl rfl
  exact run_step (run_trans (run_step (run_trans rfl (hl inner)) hop) (hr _)) hclose

theorem ReadsOperand.compare (op : Comparator) (hl : ReadsOperand ts t) (hr : ReadsOperand us u) :
    ReadsCondition (ts ++ [.compare op] ++ us) (comparison op t u) := by
  intro stack hstack
  have hlt : topLevel stack < 4 := Nat.lt_of_le_of_lt hstack (by decide)
  have hop : step (.operator stack t) (.compare op) =
      some (.operand (.pending (.compare op t) :: stack)) :=
    step_operator rfl (by simp) (reduce_of_topLevel_lt hlt t)
  refine ⟨_, run_trans (run_step (hl stack) hop) (hr _), _, _, rfl, ?_⟩
  intro p hp
  have hp : p ≤ (Pending.compare op t).level := Nat.le_trans hp (Nat.le_add_left 2 2)
  exact reduce_pending hp stack u

theorem ReadsOperand.not (h : ReadsOperand ts t) :
    ReadsCondition ([.keyword .not] ++ ts) (.not t) := by
  intro stack hstack
  have hle : topLevel stack ≤ Pending.not.level := Nat.le_trans hstack (by decide)
  have hnot : step (.operand stack) (.keyword .not) =
      some (.operand (.pending .not :: stack)) := by
    simp only [step, readOperand, if_pos hle]
  refine ⟨_, run_trans (run_singleton hnot) (h _), _, _, rfl, ?_⟩
  intro p hp
  exact reduce_pending (Nat.le_trans hp (by decide)) stack t

/-! ## Overlays -/

theorem ReadsOperand.overlay {sourceTokens replacementTokens startTokens : List Token}
    {source replacement start : Expr} {length : Option Expr} {tokens : Expr → List Token}
    {read : Expr → Expr} (hsource : ReadsOperand sourceTokens source)
    (hreplacement : ReadsOperand replacementTokens replacement)
    (hstart : ReadsOperand startTokens start)
    (hlength : ∀ n ∈ length, ReadsOperand (tokens n) (read n)) :
    ReadsOperand
      ([.keyword .overlay, .lparen] ++ sourceTokens ++ [.keyword .placing] ++
        replacementTokens ++ [.keyword .from] ++ startTokens ++
        (length.elim [] fun n => [.keyword .for] ++ tokens n) ++ [.rparen])
      (.overlay source replacement start (length.map read)) := by
  intro stack
  have hplacing : step (.operator (.bracket (.overlay []) :: stack) source)
      (.keyword .placing) = some (.operand (.bracket (.overlay [source]) :: stack)) :=
    step_next rfl rfl (by simp) rfl
  have hfrom : step (.operator (.bracket (.overlay [source]) :: stack) replacement)
      (.keyword .from) = some (.operand (.bracket (.overlay [source, replacement]) :: stack)) :=
    step_next rfl rfl (by simp) rfl
  have hopen : run (.operand stack) [.keyword .overlay, .lparen] =
      some (.operand (.bracket (.overlay []) :: stack)) := rfl
  have hoperands := run_trans (run_step (run_trans (run_step (run_trans hopen (hsource _)) hplacing)
    (hreplacement _)) hfrom) (hstart _)
  cases length with
  | none =>
    have hclose : step (.operator (.bracket (.overlay [source, replacement]) :: stack) start)
        .rparen = some (.operator stack (.overlay source replacement start none)) :=
      step_close rfl rfl
    exact run_step (run_trans hoperands rfl) hclose
  | some n =>
    have hfor : step (.operator (.bracket (.overlay [source, replacement]) :: stack) start)
        (.keyword .for) =
          some (.operand (.bracket (.overlay [source, replacement, start]) :: stack)) :=
      step_next rfl rfl (by simp) rfl
    have hclose : step
        (.operator (.bracket (.overlay [source, replacement, start]) :: stack) (read n))
        .rparen = some (.operator stack (.overlay source replacement start (some (read n)))) :=
      step_close rfl rfl
    exact run_step (run_trans hoperands (run_trans (run_singleton hfor) (hlength n rfl _))) hclose

/-! ## Lists -/

/-- Reading items with a separator between each two. `before` is the stack in front of an item
    when the ones before it are complete, `After` says what is known when an item has been read. -/
theorem run_intercalate {separator : Token} {tokens : Expr → List Token} {read : Expr → Expr}
    (before : List Expr → List Frame) (After : List Frame → Expr → State → Prop)
    (hseparator : ∀ done t s, After (before done) t s →
      step s separator = some (.operand (before (done ++ [t]))))
    (items : List Expr) (last : Expr) (done : List Expr)
    (hitem : ∀ x ∈ items ++ [last], ∀ done, ∃ s,
      run (.operand (before done)) (tokens x) = some s ∧ After (before done) (read x) s) :
    ∃ s, run (.operand (before done))
        (List.intercalate [separator] ((items ++ [last]).map tokens)) = some s ∧
      After (before (done ++ items.map read)) (read last) s := by
  induction items generalizing done with
  | nil =>
    obtain ⟨s, hrun, hafter⟩ := hitem last (by simp) done
    exact ⟨s, by simpa using hrun, by simpa using hafter⟩
  | cons x items ih =>
    obtain ⟨s, hrun, hafter⟩ := hitem x (by simp) done
    obtain ⟨s', hrest, hend⟩ :=
      ih (done ++ [read x]) fun y hy => hitem y (List.mem_cons_of_mem _ hy)
    refine ⟨s', ?_, by simpa using hend⟩
    rw [List.cons_append, List.map_cons, List.intercalate_cons_of_ne_nil (by simp)]
    exact run_trans (run_step hrun (hseparator done _ s hafter)) hrest

variable {tokens : Expr → List Token} {read : Expr → Expr}

/-- The items of a row or of a call. -/
theorem run_items (f : Option Builtin) (items : List Expr) (last : Expr) (stack : List Frame)
    (h : ∀ x ∈ items ++ [last], ReadsCondition (tokens x) (read x)) :
    ∃ s, run (.operand (.bracket (.items f []) :: stack))
        (List.intercalate [.comma] ((items ++ [last]).map tokens)) = some s ∧
      Settled (.bracket (.items f (items.map read)) :: stack) (read last) s := by
  refine run_intercalate (fun done => .bracket (.items f done) :: stack) Settled ?_ items last []
    fun x hx done => h x hx _ (Nat.zero_le 2)
  rintro done t s ⟨stack', e, rfl, hreduce⟩
  exact step_next (hreduce 0 (Nat.zero_le 2)) rfl (by simp) rfl

/-- Fields in parentheses: one alone is only grouped. -/
def rowOf : (fields : List Expr) → Expr
  | [field] => field
  | fields => .row fields

theorem ReadsOperand.row {fields : List Expr} (hne : fields ≠ [])
    (h : ∀ x ∈ fields, ReadsCondition (tokens x) (read x)) :
    ReadsOperand ([.lparen] ++ List.intercalate [.comma] (fields.map tokens) ++ [.rparen])
      (rowOf (fields.map read)) := by
  obtain ⟨items, last, rfl⟩ := (List.eq_nil_or_concat fields).resolve_left hne
  rw [List.concat_eq_append] at h ⊢
  intro stack
  obtain ⟨s, hrun, stack', e, rfl, hreduce⟩ := run_items none items last stack h
  refine run_step (run_trans rfl hrun) ?_
  refine step_close (hreduce 0 (Nat.zero_le 2)) ?_
  cases items with
  | nil => rfl
  | cons x items => cases items <;> simp [Bracket.close?, rowOf]

theorem ReadsOperand.call (f : Builtin) {args : List Expr}
    (h : ∀ x ∈ args, ReadsCondition (tokens x) (read x)) :
    ReadsOperand
      ([.function f, .lparen] ++ List.intercalate [.comma] (args.map tokens) ++ [.rparen])
      (.call f (args.map read)) := by
  intro stack
  rcases List.eq_nil_or_concat args with rfl | ⟨items, last, rfl⟩
  · rfl
  · rw [List.concat_eq_append] at h ⊢
    obtain ⟨s, hrun, stack', e, rfl, hreduce⟩ := run_items (some f) items last stack h
    refine run_step (run_trans rfl hrun) ?_
    refine step_close (hreduce 0 (Nat.zero_le 2)) ?_
    simp [Bracket.close?]

/-! ## Concatenation -/

/-- The stack in parentheses when the operands `done` of a chain of `||` are complete. -/
def concatStack (stack : List Frame) : (done : List Expr) → List Frame
  | [] => .bracket (.items none []) :: stack
  | e :: es => .pending (.concat (e :: es)) :: .bracket (.items none []) :: stack

private theorem step_concatStack {stack : List Frame} {done : List Expr} {t : Expr} {s : State}
    (h : s = .operator (concatStack stack done) t) :
    step s .concat = some (.operand (concatStack stack (done ++ [t]))) := by
  subst h
  cases done with
  | nil =>
    refine step_concat ?_ t
    exact Nat.zero_lt_succ 4
  | cons e done => exact step_concat_again (e :: done) _ t

/-- A chain of `||` of two or more operands. -/
theorem ReadsOperand.concat {args : List Expr} (hlength : 2 ≤ args.length)
    (h : ∀ x ∈ args, ReadsOperand (tokens x) (read x)) :
    ReadsOperand ([.lparen] ++ List.intercalate [.concat] (args.map tokens) ++ [.rparen])
      (.call .concat (args.map read)) := by
  intro stack
  rcases List.eq_nil_or_concat args with rfl | ⟨items, last, rfl⟩
  · cases hlength
  · rw [List.concat_eq_append] at h hlength ⊢
    obtain ⟨s, hrun, rfl⟩ :=
      run_intercalate (concatStack stack) (fun base t s => s = .operator base t)
        (fun _ _ _ => step_concatStack) items last [] fun x hx done => ⟨_, h x hx _, rfl⟩
    refine run_step (run_trans rfl hrun) ?_
    cases items with
    | nil => exact absurd hlength (Nat.not_le.2 (Nat.lt_succ_self 1))
    | cons x items => exact step_close rfl (by simp [Bracket.close?, Pending.apply])

/-! ## Connectives -/

/-- Conditions joined from left to right, the last one apart. -/
def joined (op : Connective) : List Expr → (last : Expr) → Expr
  | [], last => last
  | e :: es, last => .logical op (es.foldl (.logical op) e) last

private theorem joined_eq_foldl (op : Connective) {es rest : List Expr} {last first : Expr}
    (h : es ++ [last] = first :: rest) : joined op es last = rest.foldl (.logical op) first := by
  cases es with
  | nil =>
    cases h
    rfl
  | cons e es =>
    simp only [List.cons_append, List.cons.injEq] at h
    obtain ⟨rfl, rfl⟩ := h
    rw [List.foldl_append]
    rfl

/-- The stack in parentheses when the conditions `done` of a chain are complete. -/
def chainStack (op : Connective) (stack : List Frame) : (done : List Expr) → List Frame
  | [] => .bracket (.items none []) :: stack
  | e :: es =>
    .pending (.logical op (es.foldl (.logical op) e)) :: .bracket (.items none []) :: stack

theorem level_logical_le (op : Connective) (left : Expr) : (Pending.logical op left).level ≤ 2 := by
  cases op with
  | and => exact Nat.le_refl 2
  | or => exact Nat.le_succ 1

private theorem level_logical (op : Connective) (left left' : Expr) :
    (Pending.logical op left).level = (Pending.logical op left').level := by
  cases op <;> rfl

private theorem topLevel_chainStack (op : Connective) (stack : List Frame) (done : List Expr) :
    topLevel (chainStack op stack done) ≤ 2 := by
  cases done with
  | nil => exact Nat.zero_le 2
  | cons e es => exact level_logical_le op _

/-- What the next connective or the closing parenthesis finds. -/
theorem reduce_chainStack (op : Connective) (stack : List Frame) (done : List Expr) (t left : Expr)
    {p : Nat} (hp : p ≤ (Pending.logical op left).level) :
    reduce p (chainStack op stack done) t =
      (.bracket (.items none []) :: stack, joined op done t) := by
  cases done with
  | nil => rfl
  | cons e es =>
    rw [level_logical op left (es.foldl (.logical op) e)] at hp
    exact reduce_pending hp _ t

private theorem step_chainStack {op : Connective} {stack : List Frame} {done : List Expr} {t : Expr}
    {s : State} (h : Settled (chainStack op stack done) t s) :
    step s (.keyword op.keyword) = some (.operand (chainStack op stack (done ++ [t]))) := by
  obtain ⟨stack', e, rfl, hsettled⟩ := h
  have hstack : chainStack op stack (done ++ [t]) =
      .pending (.logical op (joined op done t)) :: .bracket (.items none []) :: stack := by
    cases done with
    | nil => rfl
    | cons e es => simp [chainStack, joined]
  rw [hstack]
  refine step_operator ?_ (by simp) ?_
  · cases op <;> rfl
  · rw [hsettled _ (level_logical_le op e)]
    exact reduce_chainStack op stack done t e (Nat.le_refl _)

theorem ReadsOperand.logical (op : Connective) {first : Expr} {rest : List Expr}
    (h : ∀ x ∈ first :: rest, ReadsCondition (tokens x) (read x)) :
    ReadsOperand ([.lparen] ++
      List.intercalate [.keyword op.keyword] ((first :: rest).map tokens) ++ [.rparen])
      ((rest.map read).foldl (.logical op) (read first)) := by
  obtain ⟨items, last, hitems⟩ := (List.eq_nil_or_concat (first :: rest)).resolve_left
    (List.cons_ne_nil first rest)
  rw [List.concat_eq_append] at hitems
  have hread : items.map read ++ [read last] = read first :: rest.map read := by
    simpa using (congrArg (List.map read) hitems).symm
  rw [← joined_eq_foldl op hread, hitems]
  rw [hitems] at h
  intro stack
  obtain ⟨s, hrun, stack', e, rfl, hsettled⟩ := run_intercalate (chainStack op stack) Settled
    (fun _ _ _ => step_chainStack) items last []
    fun x hx done => h x hx _ (topLevel_chainStack op stack done)
  refine run_step (run_trans rfl hrun) ?_
  have hclose : reduce 0 stack' e =
      (.bracket (.items none []) :: stack, joined op (items.map read) (read last)) := by
    rw [hsettled 0 (Nat.zero_le 2)]
    exact reduce_chainStack op stack _ _ last (Nat.zero_le _)
  exact step_close hclose rfl

end SqlExpr.Reader
