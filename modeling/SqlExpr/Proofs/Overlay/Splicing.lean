-- SUMMARY: The splice that overlays are rewritten to, and where the two rewrites part.
import SqlExpr.Proofs.Overlay.Evaluation

/-!
# Splicing by position

On strings of characters and of bytes alike, the substring form of an overlay gives the units in
front of the start, the replacement, and the units behind the length, at any start and for any
length. The form with `INSERT` gives the same as long as the start is a position of the source, and
the source alone behind that (`Overlay.eval_rewrites`).
-/

namespace SqlExpr

/-! ## Strings -/

namespace Datum

variable {k : StringKind} {u v : List k.Element}

private theorem overlay?_string {start n : Int} {length : Option Datum}
    (h : length.getD (string k v).units = .int n) :
    overlay? (string k u) (string k v) (.int start) length =
      some (string k (Splice.splice u v start n)) := by
  cases k <;> cases length <;> cases h <;> rfl

/-- An overlay of operands that fit is `NULL` if one of them is. -/
private theorem overlay?_null {source replacement start : Datum} {length : Option Datum}
    (hfits : overlayFits source replacement start length = true)
    (hnull : source = .null ∨ replacement = .null ∨ start = .null ∨ length = some .null) :
    overlay? source replacement start length = some .null := by
  unfold overlay?
  rw [if_pos hfits]
  split
  case h_5 => rfl
  -- in the other cases no operand is `NULL`
  all_goals rcases hnull with h | h | h | h <;> cases h

end Datum

namespace Splice

variable {α : Type} {u v : List α} {s n : Nat}

theorem splice_eq_take_append_drop (h : 1 ≤ s) :
    splice u v s n = u.take (s - 1) ++ v ++ u.drop (s - 1 + n) := by
  have hfront : ((s : Int) - 1).toNat = s - 1 := by omega
  have hback : ((s : Int) - 1 + n).toNat = s - 1 + n := by omega
  rw [splice, hfront, hback]

/-- Behind the end there is nothing to replace, and the replacement is appended. -/
private theorem splice_of_length_lt (h : u.length < s) :
    u.take (s - 1) ++ v ++ u.drop (s - 1 + n) = u ++ v := by
  rw [List.take_of_length_le (by omega), List.drop_eq_nil_of_le (by omega), List.append_nil]

end Splice

namespace Overlay

variable {env : Column → Datum} {o : Overlay} {k : StringKind} {u v : List k.Element} {s n : Nat}

/-- The overlay replaces `n` units of the string `u` from the position `s` on by the string `v`. An
    overlay without a length replaces as many as `v` has. -/
structure Splices (env : Column → Datum) (o : Overlay) (k : StringKind) (u v : List k.Element)
    (s n : Nat) : Prop where
  source : o.source.eval env = some (.string k u)
  replacement : o.replacement.eval env = some (.string k v)
  start : o.start.eval env = some (.int s)
  length : match o.length with
    | none => n = v.length
    | some e => e.eval env = some (.int n)

/-- The data of the operands of such an overlay. -/
theorem Splices.exists_operands (h : Splices env o k u v s n) :
    ∃ length, Operands env o (.string k u) (.string k v) (.int s) length ∧
      length.getD (Datum.string k v).units = .int n := by
  have hlength := h.length
  split at hlength
  case h_1 hnone =>
    subst hlength
    exact ⟨none, ⟨h.source, h.replacement, h.start, by rw [hnone]; rfl⟩, Datum.units_string⟩
  case h_2 e hsome =>
    refine ⟨some (.int n), ⟨h.source, h.replacement, h.start, ?_⟩, rfl⟩
    rw [hsome]
    exact Expr.evalOption_some.2 ⟨_, hlength, rfl⟩

theorem Splices.eval_emulated (h : Splices env o k u v s n) (hs : 1 ≤ s) :
    o.emulated.eval env =
      some (.string k (u.take (s - 1) ++ v ++ u.drop (s - 1 + n))) := by
  obtain ⟨length, hoperands, hn⟩ := h.exists_operands
  rw [← Splice.splice_eq_take_append_drop hs]
  exact Overlay.eval_emulated (eval_toExpr.2 ⟨_, _, _, _, hoperands, Datum.overlay?_string hn⟩)

theorem Splices.eval_alternate (h : Splices env o k u v s n) (hs : 1 ≤ s) :
    o.alternate.eval env = some (.string k
      (if s ≤ u.length then u.take (s - 1) ++ v ++ u.drop (s - 1 + n) else u)) := by
  obtain ⟨length, hoperands, hn⟩ := h.exists_operands
  rw [eval_alternate_eq hoperands Datum.isTextOrNull_or_isBytesOrNull_string, hn,
    Datum.insert_string]
  split
  case isTrue hu =>
    rw [← Splice.splice_eq_take_append_drop hs,
      Splice.insert_eq_splice v n (by omega) (by omega)]
  case isFalse hu =>
    have houtside : (s : Int) < 1 ∨ (u.length : Int) < s := by omega
    rw [Splice.insert, if_pos houtside]

/-- The substring form of an overlay gives the units of the source in front of the start, the
    replacement and the units behind the length. The form with `INSERT` gives the same if the start
    is a position of the source, and otherwise the source, so the two differ exactly if something is
    put behind the end. If an operand is `NULL`, both are. -/
theorem eval_rewrites (env : Column → Datum) (o : Overlay) :
    (∀ (k : StringKind) (u v : List k.Element) (s n : Nat), Splices env o k u v s n → 1 ≤ s →
      o.emulated.eval env =
        some (.string k (u.take (s - 1) ++ v ++ u.drop (s - 1 + n))) ∧
      o.alternate.eval env = some (.string k
        (if s ≤ u.length then u.take (s - 1) ++ v ++ u.drop (s - 1 + n) else u)) ∧
      (o.emulated.eval env ≠ o.alternate.eval env ↔ u.length < s ∧ v ≠ [])) ∧
    ∀ (source replacement start : Datum) (length : Option Datum),
      Operands env o source replacement start length →
      Datum.overlayFits source replacement start length = true →
      source = .null ∨ replacement = .null ∨ start = .null ∨ length = some .null →
      o.emulated.eval env = some .null ∧ o.alternate.eval env = some .null := by
  constructor
  · intro k u v s n h hs
    have hemulated := h.eval_emulated hs
    have halternate := h.eval_alternate hs
    refine ⟨hemulated, halternate, ?_⟩
    rw [hemulated, halternate, ne_eq, Option.some.injEq, Datum.string_inj]
    split
    case isTrue hu => simp [Nat.not_lt.2 hu]
    case isFalse hu =>
      rw [Splice.splice_of_length_lt (Nat.not_le.1 hu)]
      simp [Nat.not_le.1 hu]
  · intro source replacement start length hoperands hfits hnull
    have hv := eval_toExpr.2 ⟨_, _, _, _, hoperands, Datum.overlay?_null hfits hnull⟩
    refine ⟨Overlay.eval_emulated hv, Overlay.eval_alternate hv (.inl ?_)⟩
    rcases hnull with rfl | rfl | rfl | rfl
    · exact .inl hoperands.source
    · exact .inr (.inl hoperands.replacement)
    · exact .inr (.inr (.inl hoperands.start))
    · exact .inr (.inr (.inr hoperands.length))

/-- Two bytes put behind the end of three, without a length: one form appends them, the other one
    leaves them out. With a `NULL` for the length both are `NULL`. -/
theorem eval_rewrites_behind_end :
    let u : List UInt8 := [1, 2, 3]
    let v : List UInt8 := [8, 9]
    let env : Column → Datum := fun _ => .bytes u
    let o (length : Option Expr) : Overlay :=
      ⟨.column ⟨none, "s", .blob⟩, .bind (.blob v), .bind (.int 5), length⟩
    Splices env (o none) .bytes u v 5 2 ∧
      (o none).emulated.eval env = some (.bytes [1, 2, 3, 8, 9]) ∧
      (o none).alternate.eval env = some (.bytes [1, 2, 3]) ∧
      (o none).emulated.eval env ≠ (o none).alternate.eval env ∧
      (o (some (.null .integer))).emulated.eval env = some .null ∧
      (o (some (.null .integer))).alternate.eval env = some .null := by
  intro u v env o
  have hsplices : Splices env (o none) .bytes u v 5 2 := ⟨rfl, rfl, rfl, rfl⟩
  have hnull : Operands env (o (some (.null .integer))) (.bytes u) (.bytes v) (.int 5)
      (some .null) := ⟨rfl, rfl, rfl, rfl⟩
  obtain ⟨hemulated, halternate, hdiffer⟩ :=
    (eval_rewrites env (o none)).1 .bytes u v 5 2 hsplices (by decide)
  have hbehind : u.length < 5 ∧ v ≠ [] := by decide
  exact ⟨hsplices, hemulated, halternate, hdiffer.2 hbehind,
    (eval_rewrites env _).2 _ _ _ _ hnull rfl (.inr (.inr (.inr rfl)))⟩

end Overlay

end SqlExpr
