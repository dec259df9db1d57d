-- SUMMARY: Every outcome of changing an operand: when it fails and how, what is put, and what stays.
import SqlExpr.Proofs.Expr.BottomUp
import SqlExpr.Proofs.Overlay.Discipline
import SqlExpr.Proofs.Row.Acceptance

/-!
# Put and get

`Expr.withOperand` fails beyond the arity of the node, and where an operand is taken away that has
to be there. Most nodes hold afterwards just what was put, and the other operands as they were. The
two constructs may also reject what is put, and what they hold then is as it was given but for the
types of constants: of operands in an overlay, of fields in a comparison of rows
(`Expr.withOperand_outcome`).
-/

namespace SqlExpr

/-! ## Constructs -/

namespace Overlay

variable {source replacement start length : Option Expr} {o : Overlay}

private theorem ofOperands_ne_operandIndex {kind : Kind} {j n : Nat} :
    ofOperands source replacement start length ≠ .error (.operandIndex kind j n) := by
  intro h
  obtain ⟨_, hmisfit, -⟩ := ofOperands_eq_error_iff.1 h
  cases hmisfit

private theorem setOperand_ne_operandIndex {i : Nat} (hi : i < 4) {v : Option Expr} {kind : Kind}
    {j n : Nat} : o.setOperand i v ≠ .error (.operandIndex kind j n) := by
  match i, hi with
  | 0, _ | 1, _ | 2, _ | 3, _ => exact ofOperands_ne_operandIndex

/-- An overlay goes on without any of its operands. -/
private theorem exists_setOperand_none (h : ofOperands source replacement start length = .ok o)
    {i : Nat} (hi : i < 4) : ∃ o', o.setOperand i none = .ok o' := by
  obtain ⟨hstrings, hstart, hlength⟩ := ofOperands_eq_ok_iff.1 (ofOperands_again h)
  have hdisciplined := disciplined_of_ofOperands h
  have built {s r p n : Option Expr} {x : Expr × Expr} {p' : Expr} {n' : Option Expr}
      (hstrings : strings (s.getD (.null .unknown)) (r.getD (.null .unknown)) = .ok x)
      (hstart : number 2 (p.getD (.null .unknown)) = .ok p')
      (hlength : optionalNumber 3 n = .ok n') : ∃ o', ofOperands s r p n = .ok o' :=
    ⟨⟨x.1, x.2, p', n'⟩, ofOperands_eq_ok_iff.2 ⟨hstrings, hstart, hlength⟩⟩
  match i, hi with
  | 0, _ => exact built (strings_of_untyped_source rfl hdisciplined.replacement) hstart hlength
  | 1, _ => exact built (strings_of_untyped_replacement rfl hdisciplined.source) hstart hlength
  | 2, _ => exact built hstrings rfl hlength
  | 3, _ => exact @built _ _ _ none _ _ _ hstrings hstart rfl

end Overlay

namespace RowCompare

private theorem new_ne_operandIndex {op : Comparator} {l r : Row} {kind : Kind} {j n : Nat} :
    new op l r ≠ .error (.operandIndex kind j n) := by
  intro h
  cases new_eq_error_iff.1 h

private theorem setOperand_ne_operandIndex {c : RowCompare} {i : Nat} (hi : i < 2) {x : Expr}
    {kind : Kind} {j n : Nat} : c.setOperand i x ≠ .error (.operandIndex kind j n) := by
  match i, hi with
  | 0, _ | 1, _ => exact new_ne_operandIndex

end RowCompare

namespace Expr

variable {e : Expr} {i : Nat} {v : Option Expr}

theorem unchecked_iff : Unchecked e ↔ e.kind ≠ .overlay ∧ e.kind ≠ .rowComparison := by
  cases e <;> simp [Unchecked, kind]

theorem exists_overlay_of_kind (h : e.kind = .overlay) : ∃ o : Overlay, e = o.toExpr := by
  cases e with
  | overlay s r p n => exact ⟨⟨s, r, p, n⟩, rfl⟩
  | _ => cases h

theorem exists_rowCompare_of_kind (h : e.kind = .rowComparison) :
    ∃ c : RowCompare, e = c.toExpr := by
  cases e with
  | rowCompare op l r => exact ⟨⟨op, ⟨l⟩, ⟨r⟩⟩, rfl⟩
  | _ => cases h

/-! ## Failures -/

private theorem withOperand_of_arity_le (hi : e.arity ≤ i) (v : Option Expr) :
    e.withOperand i v = .error (.operandIndex e.kind i e.arity) :=
  if_pos hi

/-- Every node but an overlay needs the operand. -/
theorem withOperand_none (hkind : e.kind ≠ .overlay) (hi : i < e.arity) :
    e.withOperand i none = .error (.missingOperand e.kind i) := by
  cases e with
  | overlay => exact absurd rfl hkind
  | _ => exact if_neg (Nat.not_le.2 hi)

theorem withOperand_of_unchecked (h : Unchecked e) (hi : i < e.arity) (x : Expr) :
    e.withOperand i (some x) = .ok (e.withOperands (e.operands.set i x)) := by
  have hoperands : i < e.operands.length := by rwa [arity, h.slots_eq, List.length_map] at hi
  have hset := h.withOperand_withOperands rfl hoperands x
  rwa [withOperands_operands] at hset

/-- Below the arity the position is never at fault. -/
private theorem withOperand_ne_operandIndex (hi : i < e.arity) {kind : Kind} {j n : Nat} :
    e.withOperand i v ≠ .error (.operandIndex kind j n) := by
  by_cases hoverlay : e.kind = .overlay
  · obtain ⟨o, rfl⟩ := exists_overlay_of_kind hoverlay
    rw [Overlay.withOperand_toExpr o hi, ne_eq, Except.map_eq_error_iff]
    exact Overlay.setOperand_ne_operandIndex hi
  cases v with
  | none =>
    rw [withOperand_none hoverlay hi]
    exact nofun
  | some x =>
    by_cases hcompare : e.kind = .rowComparison
    · obtain ⟨c, rfl⟩ := exists_rowCompare_of_kind hcompare
      rw [RowCompare.withOperand_toExpr c hi, ne_eq, Except.map_eq_error_iff]
      exact RowCompare.setOperand_ne_operandIndex hi
    · rw [withOperand_of_unchecked (unchecked_iff.2 ⟨hoverlay, hcompare⟩) hi]
      exact nofun

/-- Whatever is put beyond the arity, the position is reported, and nowhere else. -/
private theorem withOperand_eq_operandIndex_iff :
    e.withOperand i v = .error (.operandIndex e.kind i e.arity) ↔ e.arity ≤ i := by
  refine ⟨fun h => ?_, fun hi => withOperand_of_arity_le hi v⟩
  exact Nat.not_lt.1 fun hi => withOperand_ne_operandIndex hi h

/-! ## Frames -/

theorem slots_withOperands_set (h : Unchecked e) (i : Nat) (x : Expr) :
    (e.withOperands (e.operands.set i x)).slots = e.slots.set i (some x) := by
  have hkind := (sameNode_withOperands e (e.operands.set i x)).kind_eq
  have hnode : Unchecked (e.withOperands (e.operands.set i x)) := by
    rw [unchecked_iff, hkind]
    exact unchecked_iff.1 h
  calc (e.withOperands (e.operands.set i x)).slots
      = (e.withOperands (e.operands.set i x)).operands.map some := hnode.slots_eq
    _ = (e.operands.set i x).map some := by rw [h.operands_withOperands List.length_set]
    _ = (e.operands.map some).set i (some x) := List.map_set
    _ = e.slots.set i (some x) := by rw [h.slots_eq]

/-- Nodes that take any operands hold what is put, and all else as it was. -/
private theorem operand?_withOperand_of_unchecked (h : Unchecked e) (hi : i < e.arity) (x : Expr) :
    ∃ e', e.withOperand i (some x) = .ok e' ∧ e'.operand? i = some x ∧
      ∀ j ≠ i, e'.operand? j = e.operand? j := by
  refine ⟨_, withOperand_of_unchecked h hi x, ?_, fun j hj => ?_⟩
  · rw [operand?, slots_withOperands_set h, List.getElem?_set_self hi, Option.join_some]
  · rw [operand?, slots_withOperands_set h, List.getElem?_set_ne hj.symm, operand?]

/-- An overlay holds what is put and its other operands, each with another type at most. -/
private theorem operand?_withOperand_of_overlay {e' : Expr} (hkind : e.kind = .overlay)
    (h : e.withOperand i v = .ok e') :
    Option.Rel SameButType (e.held i v) (e'.operand? i) ∧
      ∀ j ≠ i, Option.Rel SameButType (e.operand? j) (e'.operand? j) := by
  have hi := lt_arity_of_withOperand h
  obtain ⟨o, rfl⟩ := exists_overlay_of_kind hkind
  rw [Overlay.withOperand_toExpr o hi] at h
  obtain ⟨o', ho, rfl⟩ := Except.map_eq_ok_iff.1 h
  have hslots := Overlay.sameButType_slots_setOperand ho
  exact ⟨rel_operand?_self hslots hi, fun j hj => rel_operand?_of_ne hslots hj⟩

/-- A comparison of rows holds what is put, as a row, and its other row, each with fields of other
    types at most. -/
private theorem operand?_withOperand_of_rowCompare {e' : Expr} (hkind : e.kind = .rowComparison)
    (h : e.withOperand i v = .ok e') :
    Option.Rel SameFields (e.held i v) (e'.operand? i) ∧
      ∀ j ≠ i, Option.Rel SameFields (e.operand? j) (e'.operand? j) := by
  have hi := lt_arity_of_withOperand h
  obtain ⟨c, rfl⟩ := exists_rowCompare_of_kind hkind
  cases v with
  | none =>
    rw [withOperand_none (hkind ▸ nofun) hi] at h
    cases h
  | some x =>
    rw [RowCompare.withOperand_toExpr c hi] at h
    obtain ⟨c', hc, rfl⟩ := Except.map_eq_ok_iff.1 h
    have hslots := RowCompare.sameFields_slots_setOperand hc
    exact ⟨rel_operand?_self hslots hi, fun j hj => rel_operand?_of_ne hslots hj⟩

/-- An overlay goes on when an operand goes away. -/
private theorem Obtainable.exists_withOperand_none (he : Obtainable e) (hkind : e.kind = .overlay)
    (hi : i < e.arity) : ∃ e', e.withOperand i none = .ok e' := by
  obtain ⟨o, rfl⟩ := exists_overlay_of_kind hkind
  obtain ⟨_, _, _, _, hmade⟩ := he.everywhere_sound.self.made
  obtain ⟨o', ho'⟩ := Overlay.exists_setOperand_none hmade hi
  refine ⟨o'.toExpr, ?_⟩
  rw [Overlay.withOperand_toExpr o hi]
  exact Except.map_eq_ok_iff.2 ⟨o', ho', rfl⟩

/-- Beyond the arity the position is reported, and below it an operand that is taken away, unless an
    overlay holds it. A node that comes out is the same node. It holds what was put and its other
    operands, exactly so unless it is an overlay or a comparison of rows: these may also reject what
    is put, and may hold constants with other types, the latter in the fields of its rows. -/
theorem withOperand_outcome {e : Expr} (he : Obtainable e) (i : Nat) (v : Option Expr) :
    (e.withOperand i v = .error (.operandIndex e.kind i e.arity) ↔ e.arity ≤ i) ∧
    (i < e.arity → e.kind ≠ .overlay →
      e.withOperand i none = .error (.missingOperand e.kind i)) ∧
    (i < e.arity → e.kind = .overlay → ∃ e', e.withOperand i none = .ok e') ∧
    (∀ e', e.withOperand i v = .ok e' → SameNode e e' ∧ e'.kind = e.kind ∧ e'.arity = e.arity) ∧
    (i < e.arity → e.kind ≠ .overlay → e.kind ≠ .rowComparison →
      ∀ x, ∃ e', e.withOperand i (some x) = .ok e' ∧ e'.operand? i = some x ∧
        ∀ j ≠ i, e'.operand? j = e.operand? j) ∧
    (e.kind = .overlay → ∀ e', e.withOperand i v = .ok e' →
      Option.Rel SameButType (e.held i v) (e'.operand? i) ∧
        ∀ j ≠ i, Option.Rel SameButType (e.operand? j) (e'.operand? j)) ∧
    (e.kind = .rowComparison → ∀ e', e.withOperand i v = .ok e' →
      Option.Rel SameFields (e.held i v) (e'.operand? i) ∧
        ∀ j ≠ i, Option.Rel SameFields (e.operand? j) (e'.operand? j)) := by
  refine ⟨withOperand_eq_operandIndex_iff, fun hi hkind => withOperand_none hkind hi,
    fun hi hkind => he.exists_withOperand_none hkind hi, fun e' h => ?_,
    fun hi hoverlay hcompare x => ?_, fun hkind e' => operand?_withOperand_of_overlay hkind,
    fun hkind e' => operand?_withOperand_of_rowCompare hkind⟩
  · have hframe := withOperand_frame h
    exact ⟨hframe.node, hframe.node.kind_eq, hframe.arity_eq⟩
  · exact operand?_withOperand_of_unchecked (unchecked_iff.2 ⟨hoverlay, hcompare⟩) hi x

/-- An overlay in a comparison of rows. Without its source it holds a `NULL` there and the rest as
    it was. The comparison needs both rows, and takes a `NULL` as one that gets the type of the
    overlay. -/
theorem withOperand_outcome_overlay :
    let name : Expr := .column ⟨none, "name", .varchar none⟩
    let one : Expr := .bind (.int 1)
    let o : Overlay := ⟨name, .null (.varchar none), one, none⟩
    let c : RowCompare := ⟨.lt, ⟨[o.toExpr]⟩, ⟨[name]⟩⟩
    o.toExpr.Obtainable ∧ c.toExpr.Obtainable ∧
      o.toExpr.withOperand 4 none = .error (.operandIndex .overlay 4 4) ∧
      (∃ e', o.toExpr.withOperand 0 none = .ok e' ∧ e'.kind = .overlay ∧
        Option.Rel SameButType (some (.null .unknown)) (e'.operand? 0) ∧
        Option.Rel SameButType (some one) (e'.operand? 2)) ∧
      c.toExpr.withOperand 1 none = .error (.missingOperand .rowComparison 1) ∧
      ∃ e', c.toExpr.withOperand 1 (some (.null .unknown)) = .ok e' ∧
        Option.Rel SameFields (some (.row [.null .unknown])) (e'.operand? 1) ∧
        Option.Rel SameFields (some (.row [o.toExpr])) (e'.operand? 0) := by
  intro name one o c
  have hname : Obtainable name := .column _
  have hgiven {x : Expr} (hx : Obtainable x) : ∀ a ∈ some x, Obtainable a := by
    rintro a ⟨⟩
    exact hx
  have ho : o.toExpr.Obtainable :=
    @Obtainable.overlay name none one none o (hgiven hname) nofun (hgiven (.bind _)) nofun rfl
  have hc : c.toExpr.Obtainable := .rowCompare ho hname rfl
  obtain ⟨hindex, -⟩ := withOperand_outcome ho 4 none
  obtain ⟨-, -, hexists, hnode, -, hoverlay, -⟩ := withOperand_outcome ho 0 none
  obtain ⟨-, hmissing, -⟩ := withOperand_outcome hc 1 none
  obtain ⟨-, -, -, -, -, -, hcompare⟩ := withOperand_outcome hc 1 (some (.null .unknown))
  obtain ⟨e', he'⟩ := hexists (by decide) rfl
  obtain ⟨hheld, hothers⟩ := hoverlay rfl e' he'
  refine ⟨ho, hc, hindex.2 (by decide), ⟨e', he', (hnode e' he').2.1, hheld, hothers 2 (by decide)⟩,
    hmissing (by decide) nofun, _, rfl, ?_⟩
  obtain ⟨hheld, hothers⟩ := hcompare rfl _ rfl
  exact ⟨hheld, hothers 0 (by decide)⟩

end Expr

end SqlExpr
