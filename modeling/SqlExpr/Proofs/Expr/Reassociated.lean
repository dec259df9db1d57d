-- SUMMARY: Expressions that differ in how chains of AND and OR are nested, and that their rewrites do so too.
import SqlExpr.Proofs.Expr.Chain
import SqlExpr.Proofs.Expr.Congruence
import SqlExpr.Proofs.Expr.Operand
import SqlExpr.Render.Walk

/-!
# Nesting of chains

Conditions that one connective joins can be nested in many ways. `Expr.Reassociated` is the least
equivalence that nodes keep and that identifies the two ways to nest three conditions. Of related
expressions it is enough to know two things: the links of their chains are related one by one
(`Expr.reassociated_iff_chain`), and so are the operands of any other node
(`Expr.Reassociated.slots`).
-/

namespace SqlExpr.Expr

/-- The two are one tree, but for how conditions that are joined by the same connective are nested,
    at the root or anywhere in the operands. -/
inductive Reassociated : Expr → Expr → Prop
  | assoc (op : Connective) (a b c : Expr) :
    Reassociated (.logical op (.logical op a b) c) (.logical op a (.logical op b c))
  | refl (e : Expr) : Reassociated e e
  | symm {e e' : Expr} (h : Reassociated e e') : Reassociated e' e
  | trans {a b c : Expr} (hab : Reassociated a b) (hbc : Reassociated b c) : Reassociated a c
  /-- One node twice, with operands at the same positions that differ in nesting alone. -/
  | operands {e e' : Expr} (hnode : SameNode e e')
      (hfilled : e.slots.map Option.isSome = e'.slots.map Option.isSome)
      (h : ∀ i o o', e.operand? i = some o → e'.operand? i = some o' → Reassociated o o') :
    Reassociated e e'

namespace Reassociated

/-! ## Nodes -/

theorem forall₂_refl (es : List Expr) : List.Forall₂ Reassociated es es :=
  List.forall₂_same.2 fun e _ => .refl e

theorem of_slots {e e' : Expr} (hnode : SameNode e e')
    (h : List.Forall₂ (Option.Rel Reassociated) e.slots e'.slots) : Reassociated e e' := by
  refine .operands hnode (filled_of_forall₂ h) fun i o o' ho ho' => ?_
  have hat : Option.Rel Reassociated (e.operand? i) (e'.operand? i) := rel_join_getElem? h i
  rw [ho, ho'] at hat
  cases hat with
  | some hat => exact hat

theorem row {fields fields' : List Expr} (h : List.Forall₂ Reassociated fields fields') :
    Reassociated (.row fields) (.row fields') :=
  of_slots (.row ..) (by simpa [slots] using h)

theorem rowCompare (op : Comparator) {left right left' right' : List Expr}
    (hleft : List.Forall₂ Reassociated left left')
    (hright : List.Forall₂ Reassociated right right') :
    Reassociated (.rowCompare op left right) (.rowCompare op left' right') :=
  of_slots (.rowCompare ..) (.cons (.some (row hleft)) (.cons (.some (row hright)) .nil))

theorem congruence : Congruence Reassociated where
  refl := .refl
  call f _ _ h := of_slots (.call ..) (by simpa [slots] using h)
  arith op _ _ _ _ hl hr := of_slots (.arith ..) (.cons (.some hl) (.cons (.some hr) .nil))
  compare op _ _ _ _ hl hr := of_slots (.compare ..) (.cons (.some hl) (.cons (.some hr) .nil))
  logical op _ _ _ _ hl hr := of_slots (.logical ..) (.cons (.some hl) (.cons (.some hr) .nil))
  not h := of_slots (.not ..) (.cons (.some h) .nil)

/-! ## What related expressions have in common -/

variable {e e' : Expr}

theorem sameNode (h : Reassociated e e') : SameNode e e' := by
  induction h with
  | assoc => exact .logical ..
  | refl e => exact .refl e
  | symm _ ih => exact ih.symm
  | trans _ _ ih ih' => exact ih.trans ih'
  | operands hnode => exact hnode

theorem isLogical (h : Reassociated e e') : e.isLogical = e'.isLogical :=
  h.sameNode.isLogical_eq.symm

/-- Away from chains the operands are related, position by position. -/
theorem slots (h : Reassociated e e') (hlogical : e.isLogical = false) :
    List.Forall₂ (Option.Rel Reassociated) e.slots e'.slots := by
  induction h with
  | assoc => cases hlogical
  | refl e =>
    refine List.forall₂_same.2 fun o _ => ?_
    cases o with
    | none => exact .none
    | some o => exact .some (.refl o)
  | symm h ih =>
    refine forall₂_symm (fun _ _ hrel => ?_) (ih (h.isLogical.trans hlogical))
    cases hrel with
    | none => exact .none
    | some hrel => exact .some hrel.symm
  | trans h _ ih ih' =>
    have htrans (o o' o'' : Option Expr) (h : Option.Rel Reassociated o o')
        (h' : Option.Rel Reassociated o' o'') : Option.Rel Reassociated o o'' :=
      rel_trans (fun _ _ _ => .trans) h h'
    exact forall₂_trans htrans (ih hlogical) (ih' (h.isLogical ▸ hlogical))
  | operands _ hfilled h => exact forall₂_of_filled hfilled h

/-- Chains have as many links, which are related one by one. -/
theorem chain (h : Reassociated e e') (op : Connective) :
    List.Forall₂ Reassociated (e.chain op) (e'.chain op) := by
  induction h with
  | assoc op' a b c =>
    by_cases hop : op' = op
    · subst hop
      simp only [chain_logical, List.append_assoc]
      exact forall₂_refl _
    · simpa [Expr.chain, hop] using Reassociated.assoc op' a b c
  | refl e => exact forall₂_refl _
  | symm _ ih => exact forall₂_symm (fun _ _ => .symm) ih
  | trans _ _ ih ih' => exact forall₂_trans (fun _ _ _ => .trans) ih ih'
  | operands hnode hfilled h ih =>
    -- Only a node of the connective has more than itself for a chain.
    have hsingle := List.Forall₂.cons (Reassociated.operands hnode hfilled h) .nil
    cases hnode with
    | logical op' l r l' r' =>
      by_cases hop : op' = op
      · subst hop
        rw [chain_logical, chain_logical]
        exact List.rel_append (ih 0 l l' rfl rfl) (ih 1 r r' rfl rfl)
      · simpa [Expr.chain, hop] using hsingle
    | _ => exact hsingle

/-- What a node visits is related, whether it is a chain or not. -/
theorem links (h : Reassociated e e') : List.Forall₂ Reassociated e.links e'.links := by
  have hoperands (hlogical : e.isLogical = false) :
      List.Forall₂ Reassociated e.operands e'.operands :=
    List.rel_filterMap (fun _ _ hrel => hrel) (h.slots hlogical)
  have hchain := h.chain
  cases h.sameNode with
  | logical op l r l' r' => exact hchain op
  | _ => exact hoperands rfl

theorem dataType (h : Reassociated e e') : e.dataType = e'.dataType := by
  induction h with
  | assoc | refl => rfl
  | symm _ ih => exact ih.symm
  | trans _ _ ih ih' => exact ih.trans ih'
  | operands hnode hfilled _ ih =>
    have hslots := forall₂_of_filled (R := fun o o' => o.dataType = o'.dataType) hfilled ih
    cases hnode with
    | call f args args' =>
      have hargs : List.Forall₂ (fun o o' => o.dataType = o'.dataType) args args' := by
        simpa [Expr.slots] using hslots
      cases hargs with
      | nil => rfl
      | cons ha => simp only [Expr.dataType, ha]
    | row fields fields' =>
      have hlength : fields.length = fields'.length := by simpa [Expr.slots] using hslots.length_eq
      simp only [Expr.dataType, hlength]
    | arith op l r l' r' =>
      obtain ⟨hl, hr⟩ : l.dataType = l'.dataType ∧ r.dataType = r'.dataType := by
        simpa [Expr.slots] using hslots
      simp only [Expr.dataType, hl, hr]
    | overlay s r p s' r' p' n n' =>
      obtain ⟨hs, hr, -⟩ : s.dataType = s'.dataType ∧ r.dataType = r'.dataType ∧
          p.dataType = p'.dataType ∧ Option.Rel (fun o o' => o.dataType = o'.dataType) n n' := by
        simpa [Expr.slots] using hslots
      simp only [Expr.dataType, hs, hr]
    | _ => rfl

theorem of_row {fields fields' : List Expr} (h : Reassociated (.row fields) (.row fields')) :
    List.Forall₂ Reassociated fields fields' := by
  simpa [Expr.slots] using h.slots rfl

/-- Rewrites are related, and one is missing only if both are. -/
theorem rewrite (h : Reassociated e e') (d : Dialect) :
    Option.Rel Reassociated (e.rewrite d) (e'.rewrite d) := by
  have hslots := h.slots
  have htype := h.dataType
  cases h.sameNode with
  | overlay s r p s' r' p' n n' =>
    obtain ⟨hs, hr, hp, hn⟩ : Reassociated s s' ∧ Reassociated r r' ∧ Reassociated p p' ∧
        Option.Rel Reassociated n n' := by
      simpa [Expr.slots] using hslots rfl
    have hbinary : Overlay.isBinary ⟨s, r, p, n⟩ = Overlay.isBinary ⟨s', r', p', n'⟩ :=
      congrArg DataType.isBinary htype
    exact Overlay.rel_rewrite congruence ⟨hs, hr, hp, hn, hbinary⟩ _
  | rowCompare op l r l' r' =>
    obtain ⟨hl, hr⟩ : Reassociated (.row l) (.row l') ∧ Reassociated (.row r) (.row r') := by
      simpa [Expr.slots] using hslots rfl
    exact RowCompare.rel_rewrite congruence hl.of_row hr.of_row op _
  | _ => exact .none

end Reassociated

/-! ## Chains of any nesting -/

theorem Reassociated.foldl {e e' : Expr} {es es' : List Expr} (op : Connective)
    (h : Reassociated e e') (hes : List.Forall₂ Reassociated es es') :
    Reassociated (es.foldl (.logical op) e) (es'.foldl (.logical op) e') := by
  induction hes generalizing e e' with
  | nil => exact h
  | cons hfirst _ ih => exact ih (congruence.logical op h hfirst)

/-- One condition in front of a chain can be drawn into it. -/
private theorem reassociated_logical_foldl (op : Connective) (x e : Expr) (es : List Expr) :
    Reassociated (.logical op x (es.foldl (.logical op) e))
      (es.foldl (.logical op) (.logical op x e)) := by
  induction es generalizing e with
  | nil => exact .refl _
  | cons e' es ih =>
    have hfirst := (Reassociated.assoc op x e e').symm
    exact (ih (.logical op e e')).trans (hfirst.foldl op (Reassociated.forall₂_refl es))

/-- Every chain can be nested to the left. -/
private theorem reassociated_foldl_chain {op : Connective} {e first : Expr} {rest : List Expr}
    (h : e.chain op = first :: rest) : Reassociated e (rest.foldl (.logical op) first) := by
  induction e using chain_induction op generalizing first rest with
  | link e hne =>
    rw [chain_of_ne hne] at h
    cases h
    exact .refl e
  | node l r ihl ihr =>
    obtain ⟨a, as, hl⟩ := List.exists_cons_of_ne_nil (chain_ne_nil op l)
    obtain ⟨b, bs, hr⟩ := List.exists_cons_of_ne_nil (chain_ne_nil op r)
    rw [chain_logical, hl, hr] at h
    cases h
    have hsides := Reassociated.congruence.logical op (ihl hl) (ihr hr)
    rw [List.append_eq, List.foldl_append, List.foldl_cons]
    exact hsides.trans (reassociated_logical_foldl op _ b bs)

/-- Two expressions differ in nesting alone exactly if the links of their chains do. -/
theorem reassociated_iff_chain (op : Connective) {e e' : Expr} :
    Reassociated e e' ↔ List.Forall₂ Reassociated (e.chain op) (e'.chain op) := by
  refine ⟨fun h => h.chain op, fun h => ?_⟩
  obtain ⟨first, rest, hchain⟩ := List.exists_cons_of_ne_nil (chain_ne_nil op e)
  obtain ⟨first', rest', hchain'⟩ := List.exists_cons_of_ne_nil (chain_ne_nil op e')
  rw [hchain, hchain'] at h
  cases h with
  | cons hfirst hrest =>
    have hleft := (reassociated_foldl_chain hchain).trans (.foldl op hfirst hrest)
    exact hleft.trans (reassociated_foldl_chain hchain').symm

end SqlExpr.Expr
