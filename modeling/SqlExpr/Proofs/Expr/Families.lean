-- SUMMARY: Every value has a type of its own family, and builders only give it others of it.
import Mathlib.Logic.Relation
import SqlExpr.Proofs.Expr.PutGet

/-!
# Families of values

A constant is `Honest` if it is `NULL` or has a type of the family of its value. Overlays give types
to constants without one, and row comparisons to all constants, each a type that its own converts
to. Beside the unknown type conversion is not transitive, but an honest constant of unknown type is
`NULL`; so every such step keeps a constant honest, and a value within its family
(`Expr.Typing.keeps`). Every constant of an obtainable expression is honest
(`Expr.Obtainable.everywhere_honest`).
-/

namespace SqlExpr

/-! ## Families -/

/-- Between known types of values conversion stays within the family. -/
private theorem DataType.family_eq_of_convertsTo {t target : DataType} (ht : t.family ≠ .any)
    (htarget : target ≠ .unknown) (h : t.convertsTo target = true) :
    target.family = t.family := by
  unfold convertsTo at h
  split at h
  · exact absurd rfl ht
  · exact absurd rfl htarget
  · exact absurd rfl ht
  · exact (beq_iff_eq.1 h).symm

private theorem Value.family_ne_any {v : Value} (hv : v ≠ .null) : v.dataType.family ≠ .any := by
  cases v with
  | null => exact absurd rfl hv
  | _ => exact nofun

namespace Constant

variable {c c' c'' : Constant}

/-- The constant is `NULL`, or has a type of the family of its value. -/
def Honest (c : Constant) : Prop := c.value ≠ .null → c.dataType.family = c.value.dataType.family

theorem Honest.family_ne_any (h : c.Honest) (hc : c.value ≠ .null) : c.dataType.family ≠ .any := by
  rw [h hc]
  exact Value.family_ne_any hc

theorem Honest.value_eq_null (h : c.Honest) (hc : c.dataType = .unknown) : c.value = .null := by
  by_contra hne
  exact h.family_ne_any hne (hc ▸ rfl)

/-- The two are one value, with types of one family unless it is `NULL`. -/
structure Keeps (c c' : Constant) : Prop where
  value : c'.value = c.value
  inline : c'.inline = c.inline
  family : c.value ≠ .null → c'.dataType.family = c.dataType.family

theorem Keeps.refl (c : Constant) : c.Keeps c := ⟨rfl, rfl, fun _ => rfl⟩

theorem Keeps.trans (h : c.Keeps c') (h' : c'.Keeps c'') : c.Keeps c'' where
  value := h'.value.trans h.value
  inline := h'.inline.trans h.inline
  family hc := (h'.family (h.value ▸ hc)).trans (h.family hc)

theorem Keeps.honest (h : c.Keeps c') (hc : c.Honest) : c'.Honest := by
  intro hne
  rw [h.value] at hne ⊢
  rw [h.family hne, hc hne]

end Constant

/-! ## Steps -/

namespace Expr

private theorem Typing.eq_of_not_constant {e e' : Expr} (h : Typing e e')
    (he : e.isConstant = false) : e' = e := by
  cases h with
  | retyped t =>
    cases e with
    | constant c => cases he
    | _ => rfl
  | conformed t h => rw [← (conformed_eq_ok_iff.1 h).2, cast_of_not_constant he]

/-- An honest constant keeps its value, and a type of its family. -/
theorem Typing.keeps {c : Constant} {e' : Expr} (h : Typing (.constant c) e') (hc : c.Honest) :
    ∃ c', e' = .constant c' ∧ c.Keeps c' := by
  cases h with
  | retyped t =>
    refine ⟨_, rfl, ?_⟩
    split
    · next hunknown =>
      have hnull := hc.value_eq_null (DataType.isUnknown_eq_true.1 hunknown)
      exact ⟨rfl, rfl, fun hne => absurd hnull hne⟩
    · exact .refl c
  | conformed t h =>
    obtain ⟨htakes, rfl⟩ := conformed_eq_ok_iff.1 h
    refine ⟨_, rfl, ?_⟩
    by_cases ht : t = .unknown
    · rw [if_pos (DataType.isUnknown_eq_true.2 ht)]
      exact .refl c
    · rw [if_neg (mt DataType.isUnknown_eq_true.1 ht)]
      refine ⟨rfl, rfl, fun hne => ?_⟩
      have hconverts : c.dataType.convertsTo t = true := by
        simpa [takes, ht, hne] using htakes
      exact DataType.family_eq_of_convertsTo (hc.family_ne_any hne) ht hconverts

/-- However often an honest constant is given types, it keeps its value and the family. -/
private theorem keeps_of_typings {c : Constant} {e' : Expr}
    (h : Relation.ReflTransGen Typing (.constant c) e') (hc : c.Honest) :
    ∃ c', e' = .constant c' ∧ c.Keeps c' := by
  induction h with
  | refl => exact ⟨c, rfl, .refl c⟩
  | tail _ hstep ih =>
    obtain ⟨c', rfl, hkeeps⟩ := ih
    obtain ⟨c'', rfl, hkeeps'⟩ := hstep.keeps (hkeeps.honest hc)
    exact ⟨c'', rfl, hkeeps.trans hkeeps'⟩

/-- Types are given to an operand, or to the fields of one that is a row. -/
inductive Typings : Expr → Expr → Prop
  | single {e e' : Expr} (h : Typing e e') : Typings e e'
  | row {fields fields' : List Expr} (h : List.Forall₂ Typing fields fields') :
    Typings (.row fields) (.row fields')

theorem Typings.refl (e : Expr) : Typings e e := .single (.refl e)

theorem TypingFields.typings {e e' : Expr} (h : TypingFields e e') : Typings e e' := by
  cases h with
  | row h => exact .row h

/-- A node with an operand changed holds what it is given and its other operands, but for types
    that its builder gave. -/
theorem typings_of_withOperand {e e' : Expr} {i : Nat} {v : Option Expr}
    (h : e.withOperand i v = .ok e') :
    List.Forall₂ (Option.Rel Typings) (e.slots.set i (e.held i v)) e'.slots := by
  have hi := lt_arity_of_withOperand h
  by_cases hoverlay : e.kind = .overlay
  · obtain ⟨o, rfl⟩ := exists_overlay_of_kind hoverlay
    rw [Overlay.withOperand_toExpr o hi] at h
    obtain ⟨o', ho, rfl⟩ := Except.map_eq_ok_iff.1 h
    exact forall₂_rel_imp (Overlay.typing_slots_setOperand ho) fun _ _ => .single
  cases v with
  | none =>
    rw [withOperand_none hoverlay hi] at h
    cases h
  | some x =>
    by_cases hcompare : e.kind = .rowComparison
    · obtain ⟨c, rfl⟩ := exists_rowCompare_of_kind hcompare
      rw [RowCompare.withOperand_toExpr c hi] at h
      obtain ⟨c', hc, rfl⟩ := Except.map_eq_ok_iff.1 h
      exact forall₂_rel_imp (RowCompare.typing_slots_setOperand hc) fun _ _ => TypingFields.typings
    · have hnode := unchecked_iff.2 ⟨hoverlay, hcompare⟩
      rw [withOperand_of_unchecked hnode hi] at h
      cases h
      have hheld : e.held i (some x) = some x := by
        cases e with
        | overlay => exact absurd rfl hoverlay
        | rowCompare => exact absurd rfl hcompare
        | _ => rfl
      rw [slots_withOperands_set hnode, hheld]
      refine List.forall₂_same.2 fun o _ => ?_
      cases o with
      | none => exact .none
      | some o => exact .some (.refl o)

/-! ## Obtainable expressions -/

/-- If the node is a constant, it is honest. -/
def Honest : Expr → Prop
  | .constant c => c.Honest
  | _ => True

private theorem honest_of_sameNode {e e' : Expr} (h : SameNode e e') (he : Honest e) :
    Honest e' := by
  cases h with
  | constant c => exact he
  | _ => trivial

private theorem honest_null (t : DataType) : Honest (.null t) := fun h => absurd rfl h

theorem Typing.everywhere_honest {e e' : Expr} (h : Typing e e') (he : e.Everywhere Honest) :
    e'.Everywhere Honest := by
  cases hconstant : e.isConstant with
  | false => rwa [h.eq_of_not_constant hconstant]
  | true =>
    cases e with
    | constant c =>
      have hc : c.Honest := he.self
      obtain ⟨c', rfl, hkeeps⟩ := h.keeps hc
      exact Everywhere.constant.2 (hkeeps.honest hc)
    | _ => cases hconstant

theorem Typings.everywhere_honest {e e' : Expr} (h : Typings e e') (he : e.Everywhere Honest) :
    e'.Everywhere Honest := by
  cases h with
  | single h => exact h.everywhere_honest he
  | row h =>
    refine Everywhere.row.2 ⟨trivial, fun b hb => ?_⟩
    obtain ⟨a, ha, hab⟩ := exists_mem_of_forall₂ h hb
    exact hab.everywhere_honest ((Everywhere.row.1 he).2 a ha)

/-- In an obtainable expression every constant is honest. -/
theorem Obtainable.everywhere_honest {e : Expr} (h : Obtainable e) : e.Everywhere Honest := by
  have hrow (a : Expr) : Honest (.row [a]) := trivial
  induction h with
  | column c => exact Everywhere.column.2 trivial
  | bind v | literal v => exact Everywhere.constant.2 fun _ => rfl
  | null t => exact Everywhere.constant.2 (honest_null t)
  | call f _ ih => exact Everywhere.call.2 ⟨trivial, ih⟩
  | arith op _ _ ihl ihr => exact Everywhere.arith.2 ⟨trivial, ihl, ihr⟩
  | compare op _ _ ihl ihr => exact Everywhere.compare.2 ⟨trivial, ihl, ihr⟩
  | logical op _ _ ihl ihr => exact Everywhere.logical.2 ⟨trivial, ihl, ihr⟩
  | not _ ih => exact Everywhere.not.2 ⟨trivial, ih⟩
  | @row fields r _ h ih =>
    cases fields with
    | nil => cases h
    | cons a fields =>
      cases h
      exact Everywhere.row.2 ⟨trivial, ih⟩
  | @overlay _ _ _ _ o _ _ _ _ h ihs ihr ihp ihn =>
    have hnode : Honest o.toExpr := trivial
    refine .of_slots (fun _ _ => Typing.everywhere_honest) hnode
      (Overlay.typing_slots_of_ofOperands h) ?_
    simp only [List.mem_cons, Option.some.injEq, List.not_mem_nil, or_false]
    rintro o (rfl | rfl | rfl | ho)
    · exact .getD_null honest_null ihs _
    · exact .getD_null honest_null ihr _
    · exact .getD_null honest_null ihp _
    · exact ihn o ho.symm
  | @rowCompare _ _ _ c _ _ h ihl ihr =>
    have hnode : Honest c.toExpr := trivial
    refine .of_slots (fun _ _ => Typings.everywhere_honest) hnode
      (forall₂_rel_imp (RowCompare.typing_slots_of_new h) fun _ _ => TypingFields.typings) ?_
    simp only [List.mem_cons, Option.some.injEq, List.not_mem_nil, or_false]
    rintro o (rfl | rfl)
    · exact .ofExpr hrow ihl
    · exact .ofExpr hrow ihr
  | operand _ h ih => exact (Everywhere.iff_operands.1 ih).2 _ h
  | withOperand _ _ h ihe ihv =>
    have hnode := honest_of_sameNode (withOperand_frame h).node ihe.self
    refine .of_slots (fun _ _ => Typings.everywhere_honest) hnode (typings_of_withOperand h) ?_
    intro o ho
    rcases List.mem_or_eq_of_mem_set ho with ho | ho
    · exact (Everywhere.iff_operands.1 ihe).2 o (mem_operands.2 ho)
    · exact .held honest_null hrow ihv ho.symm

/-! ## Values -/

/-- In every expression that building, taking operands out, updates and passes lead to, a value
    other than `NULL` has a known type, of the family of its natural type, and a constant of unknown
    type is `NULL`. The builders of overlays and row comparisons, and updates through them, change
    nothing but types, by one step for an operand or field; and no sequence of such steps moves a
    value to another family. -/
theorem values_keep_family :
    (∀ e, Obtainable e → ∀ c : Constant, .constant c ∈ e.preorder →
      (c.value ≠ .null →
        c.dataType ≠ .unknown ∧ c.dataType.family = c.value.dataType.family) ∧
      (c.dataType = .unknown → c.value = .null) ∧
      ∀ e', Relation.ReflTransGen Typing (.constant c) e' →
        ∃ c', e' = .constant c' ∧ c'.value = c.value ∧ c'.inline = c.inline ∧
          (c.value ≠ .null → c'.dataType ≠ .unknown ∧ c'.dataType.family = c.dataType.family)) ∧
    (∀ (σ : Type) (f : Expr → StateM σ (Option Expr)),
      (∀ node s, Obtainable node → ∀ x ∈ (f node s).1, Obtainable x) →
      ∀ e e' s s', Obtainable e → e.replaceWith f s = .ok e' s' → Obtainable e') ∧
    (∀ (source replacement start length : Option Expr) (o : Overlay),
      Overlay.ofOperands source replacement start length = .ok o →
      List.Forall₂ (Option.Rel Typing)
        [some (source.getD (.null .unknown)), some (replacement.getD (.null .unknown)),
          some (start.getD (.null .unknown)), length]
        [some o.source, some o.replacement, some o.start, o.length]) ∧
    (∀ (op : Comparator) (l r : Row) (c : RowCompare), RowCompare.new op l r = .ok c →
      List.Forall₂ Typing l.fields c.left.fields ∧ List.Forall₂ Typing r.fields c.right.fields) ∧
    (∀ (e e' : Expr) (i : Nat) (v : Option Expr), e.withOperand i v = .ok e' →
      List.Forall₂ (Option.Rel Typings) (e.slots.set i (e.held i v)) e'.slots) := by
  refine ⟨fun e he c hc => ?_, fun σ f hf e e' s s' he h => he.replaceWith hf h,
    fun _ _ _ _ _ => Overlay.typing_slots_of_ofOperands, fun _ _ _ _ => RowCompare.typing_of_new,
    fun _ _ _ _ => typings_of_withOperand⟩
  have hhonest : c.Honest := he.everywhere_honest _ hc
  refine ⟨fun hne => ⟨fun ht => hne (hhonest.value_eq_null ht), hhonest hne⟩,
    hhonest.value_eq_null, fun e' h => ?_⟩
  obtain ⟨c', rfl, hkeeps⟩ := keeps_of_typings h hhonest
  refine ⟨c', rfl, hkeeps.value, hkeeps.inline, fun hne => ⟨fun ht => ?_, hkeeps.family hne⟩⟩
  exact hne (hkeeps.value ▸ (hkeeps.honest hhonest).value_eq_null ht)

/-- A text that took the type of the column it was compared with takes another type of texts, and
    none of numbers. -/
theorem values_keep_family_text :
    let name : Expr := .column ⟨none, "name", .char (some 3)⟩
    let c : Constant := ⟨.text "abc", .char (some 3), false⟩
    let comparison : RowCompare := ⟨.eq, ⟨[.constant c]⟩, ⟨[name]⟩⟩
    RowCompare.new .eq ⟨[.bind (.text "abc")]⟩ ⟨[name]⟩ = .ok comparison ∧
      c.dataType.family = (Value.text "abc").dataType.family ∧
      Relation.ReflTransGen Typing (.constant c) (.constant ⟨.text "abc", .text, false⟩) ∧
      ¬ Relation.ReflTransGen Typing (.constant c) (.constant ⟨.text "abc", .integer, false⟩) := by
  intro name c comparison
  have hcomparison : Obtainable comparison.toExpr :=
    @Obtainable.rowCompare .eq (.bind (.text "abc")) name comparison (.bind _) (.column _) rfl
  obtain ⟨hfamily, -, hsteps⟩ :=
    values_keep_family.1 comparison.toExpr hcomparison c
      (by simp [comparison, RowCompare.toExpr, preorder, preorderList])
  have hstep : Typing (.constant c) (.constant ⟨.text "abc", .text, false⟩) := .conformed .text rfl
  have hvalue : Value.text "abc" ≠ .null := by decide
  refine ⟨rfl, (hfamily hvalue).2, .single hstep, fun h => ?_⟩
  obtain ⟨c', hc', -, -, hkept⟩ := hsteps _ h
  cases hc'
  exact absurd (hkept hvalue).2 (by decide)

end Expr

end SqlExpr
