-- SUMMARY: Induction over expressions, the number of nodes, and the height that bounds how deep rendering goes.
import SqlExpr.Expr.Basic

/-!
# Induction and measures

`Expr.induction` proves a statement about every expression from the statement about
the expressions directly inside it. `Expr.size` counts nodes. `Expr.height` bounds
the nesting of everything that an expression can be rewritten to, see
`Expr.height_rewrite_lt`.
-/

namespace SqlExpr.Expr

/-! ## Induction -/

/-- To prove a statement for every expression, prove it for each node from the statement
    for the expressions that the node holds. -/
@[elab_as_elim, induction_eliminator]
theorem induction {motive : Expr → Prop}
    (column : ∀ c, motive (.column c))
    (constant : ∀ c, motive (.constant c))
    (call : ∀ f args, (∀ a ∈ args, motive a) → motive (.call f args))
    (arith : ∀ op l r, motive l → motive r → motive (.arith op l r))
    (compare : ∀ op l r, motive l → motive r → motive (.compare op l r))
    (logical : ∀ op l r, motive l → motive r → motive (.logical op l r))
    (not : ∀ e, motive e → motive (.not e))
    (row : ∀ fields, (∀ a ∈ fields, motive a) → motive (.row fields))
    (overlay : ∀ source replacement start length, motive source → motive replacement →
      motive start → (∀ n ∈ length, motive n) →
      motive (.overlay source replacement start length))
    (rowCompare : ∀ op left right, (∀ a ∈ left, motive a) → (∀ a ∈ right, motive a) →
      motive (.rowCompare op left right))
    (e : Expr) : motive e := by
  refine @Expr.rec motive (fun es => ∀ a ∈ es, motive a) (fun o => ∀ a ∈ o, motive a)
    column constant call arith compare logical not row overlay rowCompare ?_ ?_ ?_ ?_ e
  · simp
  · intro a as ha has b hb
    rcases List.mem_cons.1 hb with rfl | hb
    · exact ha
    · exact has b hb
  · simp
  · intro a ha b hb
    cases hb
    exact ha

/-! ## Size -/

mutual
/-- The number of nodes. Each side of a row comparison counts as a row. -/
def size : Expr → Nat
  | .column _ | .constant _ => 1
  | .call _ args => 1 + listSize args
  | .arith _ l r | .compare _ l r | .logical _ l r => 1 + l.size + r.size
  | .not e => 1 + e.size
  | .row fields => 1 + listSize fields
  | .overlay source replacement start length =>
    1 + source.size + replacement.size + start.size + optionSize length
  | .rowCompare _ left right => 1 + (1 + listSize left) + (1 + listSize right)

def listSize : List Expr → Nat
  | [] => 0
  | e :: es => e.size + listSize es

def optionSize : Option Expr → Nat
  | none => 0
  | some e => e.size
end

theorem size_pos (e : Expr) : 0 < e.size := by
  cases e <;> simp only [size] <;> omega

theorem size_le_listSize {e : Expr} {es : List Expr} (h : e ∈ es) : e.size ≤ listSize es := by
  induction es with
  | nil => cases h
  | cons a es ih =>
    rcases List.mem_cons.1 h with rfl | h
    · simp only [listSize]; omega
    · have := ih h; simp only [listSize]; omega

/-! ## Height -/

mutual
/-- A bound on the nesting of an expression and of all its rewrites. An overlay is replaced by
    nodes four deep around its operands, a comparison of rows of degree `n` by nodes up to
    `2 * n` deep around the fields. -/
def height : Expr → Nat
  | .column _ | .constant _ => 1
  | .call _ args => 1 + listHeight args
  | .arith _ l r | .compare _ l r | .logical _ l r => 1 + max l.height r.height
  | .not e => 1 + e.height
  | .row fields => 1 + listHeight fields
  | .overlay source replacement start length =>
    5 + max (max source.height replacement.height) (max start.height (optionHeight length))
  | .rowCompare _ left right => 2 * left.length + 2 + max (listHeight left) (listHeight right)

def listHeight : List Expr → Nat
  | [] => 0
  | e :: es => max e.height (listHeight es)

def optionHeight : Option Expr → Nat
  | none => 0
  | some e => e.height
end

theorem height_pos (e : Expr) : 0 < e.height := by
  cases e <;> simp only [height] <;> omega

theorem height_le_listHeight {e : Expr} {es : List Expr} (h : e ∈ es) :
    e.height ≤ listHeight es := by
  induction es with
  | nil => cases h
  | cons a es ih =>
    rcases List.mem_cons.1 h with rfl | h
    · simp only [listHeight]; omega
    · have := ih h; simp only [listHeight]; omega

/-- Flattening a chain reaches no higher than the chain itself. -/
private theorem height_le_of_mem_chain {op : Connective} {e x : Expr} (h : x ∈ e.chain op) :
    x.height ≤ e.height := by
  fun_induction chain op e with
  | case1 l r ihl ihr =>
    simp only [height]
    rcases List.mem_append.1 h with h | h
    · have := ihl h; omega
    · have := ihr h; omega
  | case2 op' l r hne => simp [List.mem_singleton.1 h]
  | case3 e he => simp [List.mem_singleton.1 h]

/-- The links of a chain of two or more conditions lie below the chain. -/
theorem height_lt_of_mem_chain_logical {op : Connective} {l r x : Expr}
    (h : x ∈ (Expr.logical op l r).chain op) : x.height < (Expr.logical op l r).height := by
  simp only [chain, ↓reduceIte, List.mem_append] at h
  simp only [height]
  rcases h with h | h
  · have := height_le_of_mem_chain h; omega
  · have := height_le_of_mem_chain h; omega

end SqlExpr.Expr
