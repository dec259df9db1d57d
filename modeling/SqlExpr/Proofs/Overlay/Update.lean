-- SUMMARY: Overlays with one operand exchanged, against overlays built with it from the start.
import SqlExpr.Proofs.Overlay.Building

/-!
# Exchanging an operand of an overlay

`Overlay.setOperand` builds the overlay from the operands that it holds, and an untyped string
among them may have got its type from the string that goes. Exchanging a string is as good as
building the overlay from the start exactly if that type is the one it would get there, or the
new string is rejected alike in both cases (`Overlay.setOperand_source_eq_iff`,
`Overlay.setOperand_replacement_eq_iff`). Exchanging a number always is.
-/

namespace SqlExpr.Overlay

/-- The expression can stand in an overlay as a string, beside other strings of its family. -/
def Admissible (e : Expr) : Prop := e.dataType = .unknown ∨ e.dataType.isString = true

/-- The replacement `r` does not show that it was beside the source `s` and not beside `v`: it
    has got no type there, or the one that it gets beside `v`, or `v` can be no source. -/
def ReplacementSettled (s r v : Expr) : Prop :=
  r.isUntyped = true → stringType s r = stringType v r ∨ ¬ Admissible v

/-- The source `s` does not show that it was beside the replacement `r` and not beside `v`: it
    has got no type there, or the one that it gets beside `v`, or `v` can be no replacement and
    the error asks for a character string in any case. -/
def SourceSettled (s r v : Expr) : Prop :=
  s.isUntyped = true → stringType s r = stringType s v ∨
    (¬ Admissible v ∧ stringFamily (stringType s r) = .textual)

/-! ## Strings -/

section Strings

variable {s r v : Expr} {t : DataType} {x : Expr × Expr}

theorem retyped_inj (hs : s.isUntyped = true) {t u : DataType} :
    s.retyped t = s.retyped u ↔ t = u := by
  constructor
  · intro h
    rw [← Expr.dataType_retyped hs t, h, Expr.dataType_retyped hs]
  · rintro rfl
    rfl

theorem admissible_of_fits (h : fits t v) : Admissible v := by
  by_cases hv : v.dataType = .unknown
  · exact .inl hv
  · exact .inr (isString_of_fits hv h)

theorem stringFamily_of_not_admissible (hv : ¬ Admissible v) :
    stringFamily v.dataType = .textual := by
  simp only [Admissible, DataType.isString, not_or, Bool.not_eq_true, Bool.or_eq_false_iff] at hv
  simp [stringFamily, hv.2.2]

/-! The source `v` beside a replacement without a type. -/

theorem strings_of_untyped_replacement (hr : r.isUntyped = true) (hv : Admissible v) :
    strings v r = .ok (v.retyped (stringType v r), r.retyped (stringType v r)) := by
  refine strings_eq_ok_iff.2 ⟨?_, .inl (Expr.dataType_of_isUntyped hr), rfl⟩
  by_cases hu : v.dataType = .unknown
  · exact .inl hu
  · rw [stringType_of_ne hu]
    exact fits_dataType (hv.resolve_left hu)

private theorem strings_of_bad_source (hv : ¬ Admissible v) (r : Expr) :
    strings v r = .error (.typeConformance .overlay 0 (.ofFamily .textual) v.dataType) := by
  simp only [strings, stringType_of_ne fun h => hv (.inl h),
    requireString_of_not_fits (mt admissible_of_fits hv), stringFamily_of_not_admissible hv]
  rfl

private theorem stringType_retyped_replacement (hr : r.isUntyped = true) (v : Expr) :
    stringType v (r.retyped (stringType v r)) = stringType v r := by
  by_cases hv : v.dataType = .unknown
  · rw [stringType_of_unknown hv, Expr.dataType_retyped hr,
      DataType.orElse_of_ne_unknown (stringType_ne_unknown v r)]
  · rw [stringType_of_ne hv, stringType_of_ne hv]

private theorem strings_typed_replacement (hr : r.isUntyped = true) (hv : Admissible v)
    (ht : t ≠ .unknown) : strings v (r.retyped t) = strings v r ↔ t = stringType v r := by
  have hnew := strings_of_untyped_replacement hr hv
  rw [hnew]
  constructor
  · intro hold
    have hpair := (strings_eq_ok_iff.1 hold).2.2
    simp only [Prod.mk.injEq, Expr.retyped_retyped ht] at hpair
    exact ((retyped_inj hr).1 hpair.2).symm
  · rintro rfl
    obtain ⟨hfitsv, hfitsr, -⟩ := strings_eq_ok_iff.1 hnew
    refine strings_eq_ok_iff.2 ?_
    rw [stringType_retyped_replacement hr, Expr.retyped_retyped (stringType_ne_unknown v r)]
    exact ⟨hfitsv, fits_retyped (isString_stringType hnew) hfitsr, rfl⟩

private theorem strings_source_eq_iff (h : strings s r = .ok x) :
    strings v x.2 = strings v r ↔ ReplacementSettled s r v := by
  obtain ⟨-, -, rfl⟩ := strings_eq_ok_iff.1 h
  cases hr : r.isUntyped with
  | true =>
    simp only [ReplacementSettled, hr, true_implies]
    by_cases hv : Admissible v
    · simpa [hv] using strings_typed_replacement hr hv (stringType_ne_unknown s r)
    · rw [strings_of_bad_source hv, strings_of_bad_source hv]
      exact iff_of_true rfl (.inr hv)
  | false =>
    rw [Expr.retyped_of_isUntyped_eq_false hr]
    exact iff_of_true rfl fun h => by rw [hr] at h; cases h

/-! The replacement `v` beside a source without a type. -/

theorem strings_of_untyped_source (hs : s.isUntyped = true) (hv : Admissible v) :
    strings s v = .ok (s.retyped (stringType s v), v.retyped (stringType s v)) := by
  refine strings_eq_ok_iff.2 ⟨.inl (Expr.dataType_of_isUntyped hs), ?_, rfl⟩
  by_cases hu : v.dataType = .unknown
  · exact .inl hu
  · rw [stringType_of_unknown (Expr.dataType_of_isUntyped hs), DataType.orElse_of_ne_unknown hu]
    exact fits_dataType (hv.resolve_left hu)

private theorem strings_of_bad_replacement (hs : fits (stringType s v) s) (hv : ¬ Admissible v) :
    strings s v = .error
      (.typeConformance .overlay 1 (.ofFamily (stringFamily (stringType s v))) v.dataType) := by
  simp only [strings, requireString_eq_ok_iff.2 hs,
    requireString_of_not_fits (mt admissible_of_fits hv)]
  rfl

theorem stringType_retyped_source (hs : s.isUntyped = true) (ht : t ≠ .unknown) (v : Expr) :
    stringType (s.retyped t) v = t := by
  have hst := Expr.dataType_retyped hs t
  rw [stringType_of_ne (by rwa [hst]), hst]

private theorem strings_typed_source (hs : s.isUntyped = true) (hv : Admissible v)
    (ht : t.isString = true) : strings (s.retyped t) v = strings s v ↔ t = stringType s v := by
  have hne := DataType.ne_unknown_of_isString ht
  have hnew := strings_of_untyped_source hs hv
  rw [hnew]
  constructor
  · intro hold
    have hpair := (strings_eq_ok_iff.1 hold).2.2
    simp only [Prod.mk.injEq, Expr.retyped_retyped hne] at hpair
    exact ((retyped_inj hs).1 hpair.1).symm
  · rintro rfl
    obtain ⟨hfitss, hfitsv, -⟩ := strings_eq_ok_iff.1 hnew
    refine strings_eq_ok_iff.2 ?_
    rw [stringType_retyped_source hs hne, Expr.retyped_retyped hne]
    exact ⟨fits_retyped ht hfitss, hfitsv, rfl⟩

theorem strings_replacement_eq_iff (h : strings s r = .ok x) :
    strings x.1 v = strings s v ↔ SourceSettled s r v := by
  have ht := isString_stringType h
  obtain ⟨hfits, -, rfl⟩ := strings_eq_ok_iff.1 h
  cases hs : s.isUntyped with
  | true =>
    simp only [SourceSettled, hs, true_implies]
    by_cases hv : Admissible v
    · simpa [hv] using strings_typed_source hs hv ht
    · -- both reject `v`, and the errors differ by the family that is asked for
      have hunknown := Expr.dataType_of_isUntyped hs
      have htype := stringType_retyped_source hs (stringType_ne_unknown s r) v
      have htypev : stringType s v = v.dataType := by
        rw [stringType_of_unknown hunknown, DataType.orElse_of_ne_unknown fun h => hv (.inl h)]
      rw [strings_of_bad_replacement (by rw [htype]; exact fits_retyped ht hfits) hv,
        strings_of_bad_replacement (.inl hunknown) hv, htype, htypev,
        stringFamily_of_not_admissible hv]
      simp only [Except.error.injEq, BuildError.typeConformance.injEq, Requirement.ofFamily.injEq,
        true_and, and_true, hv, not_false_eq_true]
      exact ⟨.inr, fun h => h.elim (fun h => h ▸ stringFamily_of_not_admissible hv) id⟩
  | false =>
    rw [Expr.retyped_of_isUntyped_eq_false hs]
    exact iff_of_true rfl fun h => by rw [hs] at h; cases h

end Strings

/-! ## Operands -/

section Operands

variable {source replacement start length : Option Expr} {o : Overlay}

/-- With numbers that can be built, an overlay is built as its strings are. -/
private theorem ofOperands_eq_map {p : Expr} {n : Option Expr}
    (hstart : number 2 (start.getD (.null .unknown)) = .ok p)
    (hlength : optionalNumber 3 length = .ok n) :
    ofOperands source replacement start length =
      (fun x => ⟨x.1, x.2, p, n⟩) <$>
        strings (source.getD (.null .unknown)) (replacement.getD (.null .unknown)) := by
  rw [ofOperands_eq, hstart, hlength]
  cases strings (source.getD (.null .unknown)) (replacement.getD (.null .unknown)) <;> rfl

/-- With numbers that can be built, overlays are alike as their strings are. -/
theorem ofOperands_inj {s' r' p' n' : Option Expr} {p : Expr} {n : Option Expr}
    (hstart : number 2 (start.getD (.null .unknown)) = .ok p)
    (hlength : optionalNumber 3 length = .ok n)
    (hstart' : number 2 (p'.getD (.null .unknown)) = .ok p)
    (hlength' : optionalNumber 3 n' = .ok n) :
    ofOperands source replacement start length = ofOperands s' r' p' n' ↔
      strings (source.getD (.null .unknown)) (replacement.getD (.null .unknown)) =
        strings (s'.getD (.null .unknown)) (r'.getD (.null .unknown)) := by
  rw [ofOperands_eq_map hstart hlength, ofOperands_eq_map hstart' hlength']
  exact map_inj_of_left_inverse ⟨fun o => (o.source, o.replacement), fun _ => rfl⟩

variable (h : ofOperands source replacement start length = .ok o) (v : Option Expr)
include h

theorem setOperand_source_eq_iff :
    o.setOperand 0 v = ofOperands v replacement start length ↔
      ReplacementSettled (source.getD (.null .unknown)) (replacement.getD (.null .unknown))
        (v.getD (.null .unknown)) := by
  obtain ⟨hstrings, hstart, hlength⟩ := ofOperands_eq_ok_iff.1 h
  rw [setOperand, ← strings_source_eq_iff hstrings]
  exact ofOperands_inj (number_again hstart) (optionalNumber_again hlength) hstart hlength

theorem setOperand_replacement_eq_iff :
    o.setOperand 1 v = ofOperands source v start length ↔
      SourceSettled (source.getD (.null .unknown)) (replacement.getD (.null .unknown))
        (v.getD (.null .unknown)) := by
  obtain ⟨hstrings, hstart, hlength⟩ := ofOperands_eq_ok_iff.1 h
  rw [setOperand, ← strings_replacement_eq_iff hstrings]
  exact ofOperands_inj (number_again hstart) (optionalNumber_again hlength) hstart hlength

theorem setOperand_start_eq :
    o.setOperand 2 v = ofOperands source replacement v length := by
  obtain ⟨hstrings, hstart, hlength⟩ := ofOperands_eq_ok_iff.1 h
  rw [setOperand, ofOperands_eq, ofOperands_eq, hstrings, hlength,
    optionalNumber_again hlength]
  exact congrArg (· >>= _) (strings_again hstrings)

theorem setOperand_length_eq :
    o.setOperand 3 v = ofOperands source replacement start v := by
  obtain ⟨hstrings, hstart, hlength⟩ := ofOperands_eq_ok_iff.1 h
  have hstrings' := strings_again hstrings
  have hstart' := number_again hstart
  simp only [setOperand, ofOperands_eq, Option.getD_some, hstrings, hstart, hstrings', hstart']

end Operands

end SqlExpr.Overlay
