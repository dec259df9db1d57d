-- SUMMARY: Overlays are built of strings and numbers: when each can be built, and what comes out.
import SqlExpr.Overlay.Basic

/-!
# Building overlays

`Overlay.ofOperands` builds the two strings together, which must be of one family, and then
each number by itself (`Overlay.ofOperands_eq`). What is built is built again without any
change (`Overlay.ofOperands_again`).
-/

namespace SqlExpr

namespace DataType

/-- A type of character strings or of binary strings. -/
def isString (t : DataType) : Bool := t.isTextual || t.isBinary

theorem ne_unknown_of_isString {t : DataType} (h : t.isString = true) : t ≠ .unknown := by
  rintro rfl
  cases h

end DataType

/-! ## Retyping -/

namespace Expr

/-- A constant whose type is still unknown. -/
def isUntyped : Expr → Bool
  | .constant c => c.dataType.isUnknown
  | _ => false

variable {e : Expr} {t : DataType}

theorem retyped_of_isUntyped_eq_false (h : e.isUntyped = false) (t : DataType) :
    e.retyped t = e := by
  cases e with
  | constant c => simp_all [isUntyped, retyped]
  | _ => rfl

theorem dataType_of_isUntyped (h : e.isUntyped = true) : e.dataType = .unknown := by
  cases e with
  | constant c => exact DataType.isUnknown_eq_true.1 h
  | _ => cases h

theorem dataType_retyped (h : e.isUntyped = true) (t : DataType) : (e.retyped t).dataType = t := by
  cases e with
  | constant c =>
    have hc : c.dataType = .unknown := dataType_of_isUntyped h
    simp [retyped, hc, dataType]
  | _ => cases h

theorem retyped_eq_or (e : Expr) (t : DataType) :
    e.retyped t = e ∨ (e.isUntyped = true ∧ (e.retyped t).dataType = t) := by
  cases h : e.isUntyped with
  | true => exact .inr ⟨rfl, dataType_retyped h t⟩
  | false => exact .inl (retyped_of_isUntyped_eq_false h t)

theorem isUntyped_retyped (ht : t ≠ .unknown) (e : Expr) : (e.retyped t).isUntyped = false := by
  cases e with
  | constant c =>
    cases hc : c.dataType.isUnknown with
    | true => simpa [retyped, isUntyped, hc, Bool.eq_false_iff] using ht
    | false => simp [retyped, isUntyped, hc]
  | _ => rfl

theorem retyped_retyped (ht : t ≠ .unknown) (e : Expr) (u : DataType) :
    (e.retyped t).retyped u = e.retyped t :=
  retyped_of_isUntyped_eq_false (isUntyped_retyped ht e) u

end Expr

namespace Overlay

theorem require_eq_ok_iff {operand : Nat} {expected : Requirement} {accepts : DataType → Bool}
    {e : Expr} :
    require operand expected accepts e = .ok () ↔
      e.dataType = .unknown ∨ accepts e.dataType = true := by
  unfold require
  split <;> simp_all

/-! ## Numbers -/

/-- A position or a length, with the type that it gets. -/
def number (operand : Nat) (e : Expr) : Except BuildError Expr := do
  requireNumeric operand e
  return e.retyped .integer

/-- The length, if there is one. -/
def optionalNumber (operand : Nat) : Option Expr → Except BuildError (Option Expr)
  | some e => some <$> number operand e
  | none => .ok none

theorem number_eq_ok_iff {operand : Nat} {e e' : Expr} :
    number operand e = .ok e' ↔
      (e.dataType = .unknown ∨ e.dataType.isNumeric = true) ∧ e' = e.retyped .integer := by
  simp only [number, Except.check_bind_eq_ok_iff, requireNumeric, require_eq_ok_iff, pure,
    Except.pure, Except.ok.injEq, @eq_comm _ e']

theorem number_again {operand : Nat} {e e' : Expr} (h : number operand e = .ok e') :
    number operand e' = .ok e' := by
  obtain ⟨htype, rfl⟩ := number_eq_ok_iff.1 h
  refine number_eq_ok_iff.2 ⟨?_, (Expr.retyped_retyped (by simp) _ _).symm⟩
  rcases Expr.retyped_eq_or e .integer with he | ⟨-, he⟩
  · rwa [he]
  · rw [he]
    exact .inr rfl

theorem optionalNumber_again {operand : Nat} {n n' : Option Expr}
    (h : optionalNumber operand n = .ok n') : optionalNumber operand n' = .ok n' := by
  cases n with
  | none =>
    cases h
    rfl
  | some e =>
    obtain ⟨e', he, rfl⟩ := Except.map_eq_ok_iff.1 h
    exact Except.map_eq_ok_iff.2 ⟨e', number_again he, rfl⟩

private theorem eq_of_optionalNumber {operand : Nat} {n n' : Option Expr}
    (h : optionalNumber operand n = .ok n') : n' = n.map (.retyped .integer) := by
  cases n with
  | none =>
    cases h
    rfl
  | some e =>
    obtain ⟨e', he, rfl⟩ := Except.map_eq_ok_iff.1 h
    rw [(number_eq_ok_iff.1 he).2, Option.map_some]

/-! ## Strings -/

/-- The type that the strings of an overlay share. -/
def stringType (source replacement : Expr) : DataType :=
  (source.dataType.orElse replacement.dataType).orElse (.varchar none)

/-- The family that is asked of the strings of an overlay. -/
def stringFamily (t : DataType) : Family := if t.isBinary then .binary else .textual

/-- The string is of the family of the type, as far as its own type is known. -/
def fits (t : DataType) (e : Expr) : Prop :=
  e.dataType = .unknown ∨ e.dataType.family = stringFamily t

/-- The two strings, with the types that they get. -/
def strings (source replacement : Expr) : Except BuildError (Expr × Expr) := do
  let t := stringType source replacement
  requireString 0 t source
  requireString 1 t replacement
  return (source.retyped t, replacement.retyped t)

section Strings

variable {s r : Expr} {t : DataType} {operand : Nat}

theorem stringType_of_ne (h : s.dataType ≠ .unknown) (r : Expr) : stringType s r = s.dataType := by
  rw [stringType, DataType.orElse_of_ne_unknown h, DataType.orElse_of_ne_unknown h]

theorem stringType_of_unknown (h : s.dataType = .unknown) (r : Expr) :
    stringType s r = r.dataType.orElse (.varchar none) := by
  rw [stringType, h, DataType.unknown_orElse]

theorem stringType_ne_unknown (s r : Expr) : stringType s r ≠ .unknown := by
  by_cases hs : s.dataType = .unknown
  · rw [stringType_of_unknown hs]
    cases r.dataType <;> simp [DataType.orElse]
  · rwa [stringType_of_ne hs]

theorem requireString_eq_ok_iff : requireString operand t s = .ok () ↔ fits t s := by
  unfold requireString fits stringFamily
  split <;> simp [require_eq_ok_iff, DataType.isBinary, DataType.isTextual]

theorem requireString_of_not_fits (h : ¬ fits t s) :
    requireString operand t s =
      .error (.typeConformance .overlay operand (.ofFamily (stringFamily t)) s.dataType) := by
  unfold requireString fits stringFamily at *
  split <;> simp_all [require, DataType.isBinary, DataType.isTextual]

theorem strings_eq_ok_iff {x : Expr × Expr} :
    strings s r = .ok x ↔ fits (stringType s r) s ∧ fits (stringType s r) r ∧
      x = (s.retyped (stringType s r), r.retyped (stringType s r)) := by
  simp only [strings, Except.check_bind_eq_ok_iff, requireString_eq_ok_iff, pure, Except.pure,
    Except.ok.injEq, @eq_comm _ x]

theorem isString_iff : t.isString = true ↔ t.family = stringFamily t := by
  unfold DataType.isString stringFamily DataType.isTextual DataType.isBinary
  cases t.family <;> decide

private theorem isString_stringFamily (h : s.dataType.family = stringFamily t) :
    s.dataType.isString = true := by
  unfold stringFamily at h
  unfold DataType.isString DataType.isTextual DataType.isBinary
  split at h <;> simp [h]

theorem fits_dataType (h : s.dataType.isString = true) : fits s.dataType s :=
  .inr (isString_iff.1 h)

theorem isString_of_fits (hs : s.dataType ≠ .unknown) (h : fits t s) :
    s.dataType.isString = true :=
  isString_stringFamily (h.resolve_left hs)

/-- A string takes the string type and fits it then. -/
theorem fits_retyped (ht : t.isString = true) (h : fits t s) : fits t (s.retyped t) := by
  rcases Expr.retyped_eq_or s t with hs | ⟨-, hs⟩
  · rwa [hs]
  · exact .inr (by rw [hs]; exact isString_iff.1 ht)

/-- The strings of an overlay share a string type. -/
theorem isString_stringType {x : Expr × Expr} (h : strings s r = .ok x) :
    (stringType s r).isString = true := by
  obtain ⟨hs, hr, -⟩ := strings_eq_ok_iff.1 h
  by_cases hsource : s.dataType = .unknown
  · rw [stringType_of_unknown hsource] at hr ⊢
    by_cases hreplacement : r.dataType = .unknown
    · rw [hreplacement]
      rfl
    · rw [DataType.orElse_of_ne_unknown hreplacement] at hr ⊢
      exact isString_of_fits hreplacement hr
  · rw [stringType_of_ne hsource] at hs ⊢
    exact isString_of_fits hsource hs

/-- Strings that got the string type share it still. -/
theorem stringType_retyped (s r : Expr) :
    stringType (s.retyped (stringType s r)) (r.retyped (stringType s r)) = stringType s r := by
  have hne : stringType s r ≠ .unknown := stringType_ne_unknown s r
  by_cases hs : (s.retyped (stringType s r)).dataType = .unknown
  · -- the source is no constant and has no type, so the replacement decides
    have hsource : s.retyped (stringType s r) = s := by
      refine Expr.retyped_of_isUntyped_eq_false (Bool.eq_false_iff.2 fun hu => hne ?_) _
      rwa [Expr.dataType_retyped hu] at hs
    rw [hsource] at hs
    rw [hsource, stringType_of_unknown hs, stringType_of_unknown hs]
    rcases Expr.retyped_eq_or r (r.dataType.orElse (.varchar none)) with hr | ⟨-, hr⟩
    · rw [hr]
    · rw [hr, DataType.orElse_of_ne_unknown]
      rwa [← stringType_of_unknown hs]
  · rw [stringType_of_ne hs]
    rcases Expr.retyped_eq_or s (stringType s r) with h | ⟨-, h⟩
    · rw [h] at hs ⊢
      exact (stringType_of_ne hs r).symm
    · exact h

theorem strings_again {x : Expr × Expr} (h : strings s r = .ok x) :
    strings x.1 x.2 = .ok x := by
  have ht := isString_stringType h
  obtain ⟨hs, hr, rfl⟩ := strings_eq_ok_iff.1 h
  have hne := DataType.ne_unknown_of_isString ht
  refine strings_eq_ok_iff.2 ?_
  rw [stringType_retyped]
  exact ⟨fits_retyped ht hs, fits_retyped ht hr, by
    rw [Expr.retyped_retyped hne, Expr.retyped_retyped hne]⟩

end Strings

variable {source replacement start length : Option Expr} {o : Overlay}

theorem ofOperands_eq (source replacement start length : Option Expr) :
    ofOperands source replacement start length = do
      let (source, replacement) ←
        strings (source.getD (.null .unknown)) (replacement.getD (.null .unknown))
      let start ← number 2 (start.getD (.null .unknown))
      let length ← optionalNumber 3 length
      return { source, replacement, start, length } := by
  simp only [ofOperands, strings, stringType, bind_assoc, pure_bind]
  refine bind_congr fun _ => bind_congr fun _ => ?_
  simp only [number, bind_assoc, pure_bind]
  refine bind_congr fun _ => ?_
  cases length with
  | none => rfl
  | some n =>
    simp only [optionalNumber, number]
    cases requireNumeric 3 n <;> rfl

theorem ofOperands_eq_ok_iff :
    ofOperands source replacement start length = .ok o ↔
      strings (source.getD (.null .unknown)) (replacement.getD (.null .unknown)) =
        .ok (o.source, o.replacement) ∧
      number 2 (start.getD (.null .unknown)) = .ok o.start ∧
      optionalNumber 3 length = .ok o.length := by
  simp only [ofOperands_eq, Except.bind_eq_ok_iff, pure, Except.pure]
  constructor
  · rintro ⟨⟨s, r⟩, hstrings, p, hstart, n, hlength, h⟩
    cases h
    exact ⟨hstrings, hstart, hlength⟩
  · rintro ⟨hstrings, hstart, hlength⟩
    exact ⟨_, hstrings, _, hstart, _, hlength, rfl⟩

/-- What an overlay is made of: operands that got a type where they had none. -/
theorem eq_of_ofOperands (h : ofOperands source replacement start length = .ok o) :
    let s := source.getD (.null .unknown)
    let r := replacement.getD (.null .unknown)
    o = ⟨s.retyped (stringType s r), r.retyped (stringType s r),
      (start.getD (.null .unknown)).retyped .integer, length.map (.retyped .integer)⟩ := by
  obtain ⟨hstrings, hstart, hlength⟩ := ofOperands_eq_ok_iff.1 h
  obtain ⟨hsource, hreplacement⟩ := Prod.mk.inj (strings_eq_ok_iff.1 hstrings).2.2
  have hstart := (number_eq_ok_iff.1 hstart).2
  have hlength := eq_of_optionalNumber hlength
  cases o
  simp_all

/-- No operand of the overlay is a constant without a type. -/
structure Typed (o : Overlay) : Prop where
  source : o.source.isUntyped = false
  replacement : o.replacement.isUntyped = false
  start : o.start.isUntyped = false
  length : ∀ e ∈ o.length, e.isUntyped = false

theorem typed_of_ofOperands (h : ofOperands source replacement start length = .ok o) :
    o.Typed := by
  have hne := stringType_ne_unknown (source.getD (.null .unknown))
    (replacement.getD (.null .unknown))
  rw [eq_of_ofOperands h]
  refine ⟨Expr.isUntyped_retyped hne _, Expr.isUntyped_retyped hne _,
    Expr.isUntyped_retyped (by decide) _, fun e he => ?_⟩
  obtain ⟨e', -, rfl⟩ := Option.map_eq_some_iff.1 he
  exact Expr.isUntyped_retyped (by decide) _

/-- Operands with a type stay as they are when the overlay is built with another one. -/
theorem Typed.setOperand {i : Nat} {v : Option Expr} {o' : Overlay} (ho : o.Typed)
    (h : o.setOperand i v = .ok o') :
    (i ≠ 0 → o'.source = o.source) ∧ (i ≠ 1 → o'.replacement = o.replacement) ∧
      (i ≠ 2 → o'.start = o.start) ∧ (i ≠ 3 → o'.length = o.length) := by
  have hsource := Expr.retyped_of_isUntyped_eq_false ho.source
  have hreplacement := Expr.retyped_of_isUntyped_eq_false ho.replacement
  have hstart := Expr.retyped_of_isUntyped_eq_false ho.start
  have hlength : o.length.map (.retyped .integer) = o.length := by
    cases hn : o.length with
    | none => rfl
    | some e => rw [Option.map_some, Expr.retyped_of_isUntyped_eq_false (ho.length e hn)]
  unfold Overlay.setOperand at h
  split at h
  case h_5 => cases h
  all_goals
    rw [eq_of_ofOperands h]
    simp [hsource, hreplacement, hstart, hlength]

/-- The operands of an overlay make the same overlay again. -/
theorem ofOperands_again (h : ofOperands source replacement start length = .ok o) :
    ofOperands o.source o.replacement o.start o.length = .ok o := by
  obtain ⟨hstrings, hstart, hlength⟩ := ofOperands_eq_ok_iff.1 h
  exact ofOperands_eq_ok_iff.2
    ⟨strings_again hstrings, number_again hstart, optionalNumber_again hlength⟩

end Overlay

end SqlExpr
