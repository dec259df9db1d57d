-- SUMMARY: Rewrites of related constructs are related, by every relation that nodes keep.
import Mathlib.Data.List.Forall2
import SqlExpr.Render.Piece

/-!
# Relations that rewrites keep

A rewrite puts the operands of a construct into calls, sums, comparisons and conditions. A relation
that these nodes keep is an `Expr.Congruence`. It relates the rewrites of two constructs whose
operands it relates (`Overlay.rel_rewrite`, `RowCompare.rel_rewrite`); one of them has a rewrite only
if the other one has.
-/

namespace SqlExpr

/-- The relation holds between nodes of the kinds that rewrites are made of, if it holds between
    their operands. -/
structure Expr.Congruence (R : Expr → Expr → Prop) : Prop where
  refl : ∀ e, R e e
  call : ∀ f {args args'}, List.Forall₂ R args args' → R (.call f args) (.call f args')
  arith : ∀ op {l r l' r'}, R l l' → R r r' → R (.arith op l r) (.arith op l' r')
  compare : ∀ op {l r l' r'}, R l l' → R r r' → R (.compare op l r) (.compare op l' r')
  logical : ∀ op {l r l' r'}, R l l' → R r r' → R (.logical op l r) (.logical op l' r')
  not : ∀ {e e'}, R e e' → R (.not e) (.not e')

variable {R : Expr → Expr → Prop}

/-! ## Overlays -/

namespace Overlay

/-- The overlays splice the same units and their operands are related. -/
structure Related (R : Expr → Expr → Prop) (o o' : Overlay) : Prop where
  source : R o.source o'.source
  replacement : R o.replacement o'.replacement
  start : R o.start o'.start
  length : Option.Rel R o.length o'.length
  isBinary : o.isBinary = o'.isBinary

variable {o o' : Overlay}

theorem rel_effectiveLength (hR : Expr.Congruence R) (h : Related R o o') :
    R o.effectiveLength o'.effectiveLength := by
  have hdefault : R (.call o.lengthFunction [o.replacement])
      (.call o'.lengthFunction [o'.replacement]) := by
    unfold lengthFunction
    rw [h.isBinary]
    exact hR.call _ (.cons h.replacement .nil)
  have getD {n n' : Option Expr} (hn : Option.Rel R n n') :
      R (n.getD (.call o.lengthFunction [o.replacement]))
        (n'.getD (.call o'.lengthFunction [o'.replacement])) := by
    cases hn with
    | none => exact hdefault
    | some hn => exact hn
  exact getD h.length

private theorem rel_alternate (hR : Expr.Congruence R) (h : Related R o o') :
    R o.alternate o'.alternate := by
  have hback := List.Forall₂.cons (rel_effectiveLength hR h) (.cons h.replacement .nil)
  exact hR.call .insert (.cons h.source (.cons h.start hback))

private theorem rel_head (hR : Expr.Congruence R) (h : Related R o o') : R o.head o'.head := by
  have hend := hR.arith .sub h.start (hR.refl (.literal (.int 1)))
  exact hR.call .substring (.cons h.source (.cons (hR.refl _) (.cons hend .nil)))

private theorem rel_tail (hR : Expr.Congruence R) (h : Related R o o') : R o.tail o'.tail := by
  have hstart := hR.arith .add h.start (rel_effectiveLength hR h)
  exact hR.call .substring (.cons h.source (.cons hstart .nil))

private theorem rel_emulated (hR : Expr.Congruence R) (h : Related R o o') :
    R o.emulated o'.emulated := by
  unfold emulated concatFunction
  rw [h.isBinary]
  have hfront := hR.call (if o'.isBinary then Builtin.binaryConcat else .concat)
    (.cons (rel_head hR h) (.cons h.replacement .nil))
  exact hR.call _ (.cons hfront (.cons (rel_tail hR h) .nil))

theorem rel_rewrite (hR : Expr.Congruence R) (h : Related R o o') (s : Support) :
    Option.Rel R (o.rewrite s) (o'.rewrite s) := by
  cases s with
  | native => exact .none
  | alternate => exact .some (rel_alternate hR h)
  | emulated => exact .some (rel_emulated hR h)

end Overlay

/-! ## Row comparisons -/

namespace RowCompare

variable {left right left' right' : List Expr}

section

variable (hR : Expr.Congruence R) (hleft : List.Forall₂ R left left')
  (hright : List.Forall₂ R right right')

include hR hleft hright

private theorem forall₂_fieldEqualities :
    List.Forall₂ R (fieldEqualities left right) (fieldEqualities left' right') := by
  induction hleft generalizing right right' with
  | nil => exact .nil
  | cons hl _ ih =>
    cases hright with
    | nil => exact .nil
    | cons hr hright => exact .cons (hR.compare .eq hl hr) (ih hright)

private theorem rel_equality (negated : Bool) :
    Option.Rel R (equality left right negated) (equality left' right' negated) := by
  have hfields := forall₂_fieldEqualities hR hleft hright
  unfold equality
  generalize fieldEqualities left right = equalities at hfields
  generalize fieldEqualities left' right' = equalities' at hfields
  cases hfields with
  | nil => exact .none
  | cons hfirst hrest =>
    have hand : Relator.LiftFun R (Relator.LiftFun R R) Expr.and Expr.and :=
      fun _ _ hl _ _ hr => hR.logical .and hl hr
    have hconjunction := List.rel_foldl hand hfirst hrest
    cases negated with
    | false => exact .some hconjunction
    | true => exact .some (hR.not hconjunction)

private theorem rel_lexicographic (op : Comparator) :
    Option.Rel R (lexicographic op left right) (lexicographic op left' right') := by
  have step {l r l' r' : Expr} {x x' : Option Expr} (hl : R l l') (hr : R r r')
      (hx : Option.Rel R x x') :
      Option.Rel R
        (x.bind fun rest => some (.or (.compare op.strict l r) (.and (.compare .eq l r) rest)))
        (x'.bind fun rest =>
          some (.or (.compare op.strict l' r') (.and (.compare .eq l' r') rest))) := by
    cases hx with
    | none => exact .none
    | some hx =>
      have htie := hR.logical .and (hR.compare .eq hl hr) hx
      exact .some (hR.logical .or (hR.compare op.strict hl hr) htie)
  induction hleft generalizing right right' with
  | nil => exact .none
  | cons hl hleft ih =>
    cases hright with
    | nil => cases hleft <;> exact .none
    | cons hr hright =>
      have hrest := step hl hr (ih hright)
      cases hleft with
      | nil =>
        cases hright with
        | nil => exact .some (hR.compare op hl hr)
        | cons => exact hrest
      | cons => exact hrest

private theorem rel_ordering (op : Comparator) :
    Option.Rel R (ordering op left right) (ordering op left' right') := by
  have htree := rel_lexicographic hR hleft hright op
  unfold ordering
  split
  · generalize lexicographic op left right = tree at htree
    generalize lexicographic op left' right' = tree' at htree
    cases htree with
    | none => exact .none
    | some htree =>
      cases hleft with
      | nil => exact .some htree
      | cons hl hleft =>
        cases hleft with
        | nil => exact .some htree
        | cons =>
          cases hright with
          | nil => exact .some htree
          | cons hr hright =>
            cases hright with
            | nil => exact .some htree
            | cons => exact .some (hR.logical .and (hR.compare op.factored hl hr) htree)
  · exact .none

theorem rel_rewrite (op : Comparator) (s : Support) :
    Option.Rel R (rewrite ⟨op, ⟨left⟩, ⟨right⟩⟩ s) (rewrite ⟨op, ⟨left'⟩, ⟨right'⟩⟩ s) := by
  cases s with
  | native | alternate => exact .none
  | emulated =>
    cases op with
    | eq => exact rel_equality hR hleft hright false
    | ne => exact rel_equality hR hleft hright true
    | gt | ge | lt | le => exact rel_ordering hR hleft hright _

end

end RowCompare

end SqlExpr
