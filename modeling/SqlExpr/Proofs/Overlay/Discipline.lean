-- SUMMARY: Which operands an overlay takes, which one is reported, and the types that its operands have from then on.
import SqlExpr.Overlay.Rewrite
import SqlExpr.Proofs.Expr.Obtainable
import SqlExpr.Proofs.Overlay.Update

/-!
# Types of the operands of overlays

An overlay is built unless an operand is given with a known type that its position does not take;
the first such operand is reported (`Overlay.Misfit`). However an overlay comes about, by
building, by updates or by passes, its strings are of one family and its numbers are numbers, as
far as their types are known. So the family by which its rewrites splice, which is read off the
operands it holds, is that of any of its strings (`Overlay.Disciplined`).
-/

namespace SqlExpr

namespace Overlay

/-! ## Operands that do not fit -/

/-- The operand at a position is given with a known type that the position does not take, with the
    error that reports it. A replacement goes by the source if the type of that is known. -/
inductive Misfit (source replacement start length : Option Expr) : Nat → BuildError → Prop
  | source {s : Expr} (hs : s ∈ source) (hknown : s.dataType ≠ .unknown)
    (h : s.dataType.isString = false) : Misfit source replacement start length 0
      (.typeConformance .overlay 0 (.ofFamily .textual) s.dataType)
  | replacementBeside {s r : Expr} (hs : s ∈ source) (hsource : s.dataType ≠ .unknown)
    (hr : r ∈ replacement) (hknown : r.dataType ≠ .unknown)
    (h : r.dataType.family ≠ s.dataType.family) : Misfit source replacement start length 1
      (.typeConformance .overlay 1 (.ofFamily s.dataType.family) r.dataType)
  | replacementAlone {r : Expr} (hsource : ∀ s ∈ source, s.dataType = .unknown)
    (hr : r ∈ replacement) (hknown : r.dataType ≠ .unknown)
    (h : r.dataType.isString = false) : Misfit source replacement start length 1
      (.typeConformance .overlay 1 (.ofFamily .textual) r.dataType)
  | start {p : Expr} (hp : p ∈ start) (hknown : p.dataType ≠ .unknown)
    (h : p.dataType.isNumeric = false) : Misfit source replacement start length 2
      (.typeConformance .overlay 2 .numericExpression p.dataType)
  | length {n : Expr} (hn : n ∈ length) (hknown : n.dataType ≠ .unknown)
    (h : n.dataType.isNumeric = false) : Misfit source replacement start length 3
      (.typeConformance .overlay 3 .numericExpression n.dataType)

/-- The operand at a position is absent, or its type is unknown or one that the position takes. -/
def FitsAt (source replacement start length : Option Expr) (i : Nat) : Prop :=
  ∀ err, ¬ Misfit source replacement start length i err

variable {source replacement start length : Option Expr} {o : Overlay} {err : BuildError}

/-! ## Checks that fail -/

section Checks

variable {s r e : Expr} {t : DataType} {operand : Nat}

theorem not_admissible_iff :
    ¬ Admissible e ↔ e.dataType ≠ .unknown ∧ e.dataType.isString = false := by
  rw [Admissible, not_or, Bool.not_eq_true]

theorem fits_dataType_iff : fits e.dataType e ↔ Admissible e :=
  ⟨admissible_of_fits, fun h => h.elim .inl fits_dataType⟩

theorem fits_stringType_iff : fits (stringType s r) s ↔ Admissible s := by
  by_cases hs : s.dataType = .unknown
  · exact iff_of_true (.inl hs) (.inl hs)
  · rw [stringType_of_ne hs, fits_dataType_iff]

/-- Beside a source without a type, the replacement is asked for by its own type. -/
private theorem fits_replacement_of_unknown (hs : s.dataType = .unknown) :
    fits (stringType s r) r ↔ Admissible r := by
  by_cases hr : r.dataType = .unknown
  · exact iff_of_true (.inl hr) (.inl hr)
  · rw [stringType_of_unknown hs, DataType.orElse_of_ne_unknown hr, fits_dataType_iff]

theorem requireString_eq_error_iff : requireString operand t e = .error err ↔ ¬ fits t e ∧
    err = .typeConformance .overlay operand (.ofFamily (stringFamily t)) e.dataType := by
  by_cases h : fits t e
  · simp [requireString_eq_ok_iff.2 h, h]
  · simp [requireString_of_not_fits h, h, @eq_comm _ err]

private theorem requireString_source_eq_error_iff :
    requireString 0 (stringType s r) s = .error err ↔
    ¬ Admissible s ∧ err = .typeConformance .overlay 0 (.ofFamily .textual) s.dataType := by
  rw [requireString_eq_error_iff, fits_stringType_iff]
  refine and_congr_right fun h => ?_
  rw [stringType_of_ne fun hs => h (.inl hs), stringFamily_of_not_admissible h]

theorem requireNumeric_eq_error_iff : requireNumeric operand e = .error err ↔
    e.dataType ≠ .unknown ∧ e.dataType.isNumeric = false ∧
      err = .typeConformance .overlay operand .numericExpression e.dataType := by
  unfold requireNumeric require
  split <;> grind [DataType.isUnknown_eq_true]

private theorem strings_eq_error_iff : strings s r = .error err ↔
    (¬ Admissible s ∧ err = .typeConformance .overlay 0 (.ofFamily .textual) s.dataType) ∨
      Admissible s ∧ requireString 1 (stringType s r) r = .error err := by
  simp only [strings, Except.check_bind_eq_error_iff, requireString_eq_ok_iff, fits_stringType_iff,
    requireString_source_eq_error_iff]
  simp [pure, Except.pure]

theorem number_eq_error_iff : number operand e = .error err ↔
    requireNumeric operand e = .error err := by
  rw [number, Except.check_bind_eq_error_iff]
  simp [pure, Except.pure]

end Checks

/-! ## Building, or the first misfit -/

section Given

variable {s r p : Expr}

/-- An operand of known type is there. -/
theorem mem_of_getD {e : Option Expr} {a : Expr} (ha : e.getD (.null .unknown) = a)
    (hknown : a.dataType ≠ .unknown) : a ∈ e := by
  cases e with
  | none => exact absurd (congrArg Expr.dataType ha).symm hknown
  | some b => exact congrArg some ha

theorem getD_of_mem {e : Option Expr} {a : Expr} (ha : a ∈ e) :
    e.getD (.null .unknown) = a := by
  cases ha
  rfl

theorem misfit_source_iff : Misfit source replacement start length 0 err ↔
    ¬ Admissible (source.getD (.null .unknown)) ∧
      err = .typeConformance .overlay 0 (.ofFamily .textual)
        (source.getD (.null .unknown)).dataType := by
  rw [not_admissible_iff]
  constructor
  · rintro ⟨hs, hknown, h⟩
    rw [getD_of_mem hs]
    exact ⟨⟨hknown, h⟩, rfl⟩
  · rintro ⟨⟨hknown, h⟩, rfl⟩
    exact .source (mem_of_getD rfl hknown) hknown h

theorem fitsAt_source_iff : FitsAt source replacement start length 0 ↔
    Admissible (source.getD (.null .unknown)) := by
  simp [FitsAt, misfit_source_iff]

/-- Beside a source that an overlay can have. -/
private theorem misfit_replacement_iff (hs : source.getD (.null .unknown) = s)
    (hr : replacement.getD (.null .unknown) = r) (hsource : Admissible s) :
    Misfit source replacement start length 1 err ↔
      requireString 1 (stringType s r) r = .error err := by
  rw [requireString_eq_error_iff]
  -- the replacement is asked for by the type of the source if that is known, else by its own
  by_cases hunknown : s.dataType = .unknown
  case pos =>
    have hnone : ∀ a ∈ source, a.dataType = .unknown := by
      intro a ha
      rwa [← getD_of_mem ha, hs]
    have hfamily (hr : ¬ Admissible r) : stringFamily (stringType s r) = .textual := by
      rw [stringType_of_unknown hunknown, DataType.orElse_of_ne_unknown fun h => hr (.inl h),
        stringFamily_of_not_admissible hr]
    rw [fits_replacement_of_unknown hunknown]
    constructor
    · rintro (_ | ⟨ha, hknown, -, -, -⟩ | ⟨-, hb, hknown, h⟩)
      · exact absurd (hnone _ ha) hknown
      · obtain rfl := hr.symm.trans (getD_of_mem hb)
        have hbad := not_admissible_iff.2 ⟨hknown, h⟩
        exact ⟨hbad, by rw [hfamily hbad]⟩
    · rintro ⟨hbad, rfl⟩
      rw [hfamily hbad]
      obtain ⟨hknown, h⟩ := not_admissible_iff.1 hbad
      exact .replacementAlone hnone (mem_of_getD hr hknown) hknown h
  case neg =>
    have hmem := mem_of_getD hs hunknown
    have hfamily : stringFamily s.dataType = s.dataType.family :=
      (isString_iff.1 (hsource.resolve_left hunknown)).symm
    rw [stringType_of_ne hunknown, fits, hfamily, not_or]
    constructor
    · rintro (_ | ⟨ha, -, hb, hknown, h⟩ | ⟨hnone, -, -, -⟩)
      · obtain rfl := hs.symm.trans (getD_of_mem ha)
        obtain rfl := hr.symm.trans (getD_of_mem hb)
        exact ⟨⟨hknown, h⟩, rfl⟩
      · exact absurd (hnone _ hmem) hunknown
    · rintro ⟨⟨hknown, h⟩, rfl⟩
      exact .replacementBeside hmem hunknown (mem_of_getD hr hknown) hknown h

theorem misfit_start_iff : Misfit source replacement start length 2 err ↔
    requireNumeric 2 (start.getD (.null .unknown)) = .error err := by
  rw [requireNumeric_eq_error_iff]
  constructor
  · rintro (_ | _ | _ | ⟨hp, hknown, h⟩)
    rw [getD_of_mem hp]
    exact ⟨hknown, h, rfl⟩
  · rintro ⟨hknown, h, rfl⟩
    exact .start (mem_of_getD rfl hknown) hknown h

private theorem misfit_length_iff : Misfit source replacement start length 3 err ↔
    optionalNumber 3 length = .error err := by
  constructor
  · rintro (_ | _ | _ | _ | ⟨hn, hknown, h⟩)
    cases hn
    exact Except.map_eq_error_iff.2
      (number_eq_error_iff.2 (requireNumeric_eq_error_iff.2 ⟨hknown, h, rfl⟩))
  · intro h
    cases length with
    | none => cases h
    | some n =>
      have hnumber := number_eq_error_iff.1 (Except.map_eq_error_iff.1 h)
      obtain ⟨hknown, hbad, rfl⟩ := requireNumeric_eq_error_iff.1 hnumber
      exact .length rfl hknown hbad

/-- The source is checked before the replacement. -/
theorem strings_eq_error_iff_misfit :
    strings (source.getD (.null .unknown)) (replacement.getD (.null .unknown)) = .error err ↔
      Misfit source replacement start length 0 err ∨
        FitsAt source replacement start length 0 ∧
          Misfit source replacement start length 1 err := by
  rw [strings_eq_error_iff, misfit_source_iff, fitsAt_source_iff]
  exact or_congr_right (and_congr_right fun h => (misfit_replacement_iff rfl rfl h).symm)

private theorem exists_strings_iff :
    (∃ x, strings (source.getD (.null .unknown)) (replacement.getD (.null .unknown)) = .ok x) ↔
      FitsAt source replacement start length 0 ∧ FitsAt source replacement start length 1 := by
  simp only [Except.exists_ok_iff, ne_eq,
    @strings_eq_error_iff_misfit source replacement start length]
  constructor
  · intro h
    have hsource : FitsAt source replacement start length 0 := fun err hm => h err (.inl hm)
    exact ⟨hsource, fun err hm => h err (.inr ⟨hsource, hm⟩)⟩
  · rintro ⟨hsource, hreplacement⟩ err (hm | ⟨-, hm⟩)
    · exact hsource err hm
    · exact hreplacement err hm

private theorem exists_number_iff : (∃ p, number 2 (start.getD (.null .unknown)) = .ok p) ↔
    FitsAt source replacement start length 2 := by
  simp only [Except.exists_ok_iff, ne_eq, number_eq_error_iff,
    ← @misfit_start_iff source replacement start length]
  rfl

end Given

/-- The strings are checked before the start, and the length comes last. -/
private theorem ofOperands_eq_error_iff_stages :
    ofOperands source replacement start length = .error err ↔
      strings (source.getD (.null .unknown)) (replacement.getD (.null .unknown)) = .error err ∨
        (∃ x, strings (source.getD (.null .unknown)) (replacement.getD (.null .unknown)) = .ok x) ∧
          (requireNumeric 2 (start.getD (.null .unknown)) = .error err ∨
            (∃ p, number 2 (start.getD (.null .unknown)) = .ok p) ∧
              optionalNumber 3 length = .error err) := by
  simp only [ofOperands_eq, Except.bind_eq_error_iff, number_eq_error_iff, pure, Except.pure,
    reduceCtorEq, and_false, exists_false, or_false, exists_and_right]

/-- An overlay is not built if an operand does not fit, and the first one is reported. -/
theorem ofOperands_eq_error_iff :
    ofOperands source replacement start length = .error err ↔
      ∃ i, Misfit source replacement start length i err ∧
        ∀ j < i, FitsAt source replacement start length j := by
  rw [ofOperands_eq_error_iff_stages, strings_eq_error_iff_misfit, exists_strings_iff,
    ← misfit_start_iff, exists_number_iff, ← misfit_length_iff]
  constructor
  · rintro ((h | ⟨h₀, h⟩) | ⟨⟨h₀, h₁⟩, h | ⟨h₂, h⟩⟩)
    · exact ⟨0, h, nofun⟩
    · exact ⟨1, h, fun j hj => Nat.lt_one_iff.1 hj ▸ h₀⟩
    · refine ⟨2, h, fun j hj => ?_⟩
      match j, hj with
      | 0, _ => exact h₀
      | 1, _ => exact h₁
    · refine ⟨3, h, fun j hj => ?_⟩
      match j, hj with
      | 0, _ => exact h₀
      | 1, _ => exact h₁
      | 2, _ => exact h₂
  · rintro ⟨i, h, hbefore⟩
    match i with
    | 0 => exact .inl (.inl h)
    | 1 => exact .inl (.inr ⟨hbefore 0 (by decide), h⟩)
    | 2 => exact .inr ⟨⟨hbefore 0 (by decide), hbefore 1 (by decide)⟩, .inl h⟩
    | 3 =>
      exact .inr ⟨⟨hbefore 0 (by decide), hbefore 1 (by decide)⟩,
        .inr ⟨hbefore 2 (by decide), h⟩⟩

private theorem exists_ofOperands_iff : (∃ o, ofOperands source replacement start length = .ok o) ↔
    ∀ i, FitsAt source replacement start length i := by
  simp only [Except.exists_ok_iff, ne_eq, ofOperands_eq_error_iff]
  constructor
  · intro h i
    induction i using Nat.strongRecOn with
    | ind i ih => exact fun err hm => h err ⟨i, hm, ih⟩
  · rintro h err ⟨i, hm, -⟩
    exact h i err hm

/-! ## Overlays that were built -/

/-- What replaces the overlay if strings are measured with `measure` and joined with `join`. -/
def rewriteBy (measure join : Builtin) (o : Overlay) : Support → Option Expr
  | .native => none
  | .alternate =>
    let length := o.length.getD (.call measure [o.replacement])
    some (.call .insert [o.source, o.start, length, o.replacement])
  | .emulated =>
    let length := o.length.getD (.call measure [o.replacement])
    let front : Expr :=
      .call .substring [o.source, .literal (.int 1), o.start.sub (.literal (.int 1))]
    let back : Expr := .call .substring [o.source, o.start.add length]
    some (.call join [.call join [front, o.replacement], back])

/-- The strings of the overlay are of one family and its numbers are numbers, as far as their types
    are known, and no constant among them is without a type. The overlay is binary if any of its
    strings is, and its rewrites measure and join strings accordingly. -/
structure Disciplined (o : Overlay) : Prop where
  source : o.source.dataType = .unknown ∨ o.source.dataType.isString = true
  replacement : o.replacement.dataType = .unknown ∨ o.replacement.dataType.isString = true
  alike : o.source.dataType ≠ .unknown → o.replacement.dataType ≠ .unknown →
    o.source.dataType.family = o.replacement.dataType.family
  start : o.start.dataType = .unknown ∨ o.start.dataType.isNumeric = true
  length : ∀ n ∈ o.length, n.dataType = .unknown ∨ n.dataType.isNumeric = true
  typed : o.Typed
  isBinary_iff : o.isBinary = true ↔
    o.source.dataType.isBinary = true ∨ o.replacement.dataType.isBinary = true
  rewrite_eq (s : Support) : o.rewrite s =
    if o.isBinary then o.rewriteBy .octetLength .binaryConcat s
    else o.rewriteBy .charLength .concat s

private theorem rewrite_eq_rewriteBy (o : Overlay) (s : Support) :
    o.rewrite s = o.rewriteBy o.lengthFunction o.concatFunction s := by
  cases s <;> rfl

/-- The family is read off the first string of known type, but any other is of the same family. -/
private theorem isBinary_iff_of_alike (h : o.source.dataType ≠ .unknown →
    o.replacement.dataType ≠ .unknown → o.source.dataType.family = o.replacement.dataType.family) :
    o.isBinary = true ↔
      o.source.dataType.isBinary = true ∨ o.replacement.dataType.isBinary = true := by
  have hne {t : DataType} (ht : t.isBinary = true) : t ≠ .unknown := by
    rintro rfl
    cases ht
  rw [isBinary, dataType]
  by_cases hs : o.source.dataType = .unknown
  · rw [hs, DataType.unknown_orElse]
    exact ⟨.inr, fun h => h.resolve_left nofun⟩
  · rw [DataType.orElse_of_ne_unknown hs]
    refine ⟨.inl, fun hbinary => hbinary.elim id fun hr => ?_⟩
    rwa [DataType.isBinary, h hs (hne hr)]

theorem disciplined_of_ofOperands (h : ofOperands source replacement start length = .ok o) :
    o.Disciplined := by
  -- the overlay is built of its own operands again, so these have passed the checks
  obtain ⟨hstrings, hstart, hlength⟩ := ofOperands_eq_ok_iff.1 (ofOperands_again h)
  obtain ⟨hs, hr, -⟩ := strings_eq_ok_iff.1 hstrings
  have halike (hsource : o.source.dataType ≠ .unknown)
      (hreplacement : o.replacement.dataType ≠ .unknown) :
      o.source.dataType.family = o.replacement.dataType.family :=
    (hs.resolve_left hsource).trans (hr.resolve_left hreplacement).symm
  exact {
    source := admissible_of_fits hs
    replacement := admissible_of_fits hr
    alike := halike
    start := (number_eq_ok_iff.1 hstart).1
    length := by
      intro n hn
      rw [Option.mem_def] at hn
      rw [hn] at hlength
      obtain ⟨n', hn', -⟩ := Except.map_eq_ok_iff.1 hlength
      exact (number_eq_ok_iff.1 hn').1
    typed := typed_of_ofOperands h
    isBinary_iff := isBinary_iff_of_alike halike
    rewrite_eq := by
      intro s
      rw [rewrite_eq_rewriteBy, lengthFunction, concatFunction]
      split <;> rfl }

end Overlay

/-- If the expression is an overlay, its operands have the types of one. -/
def Expr.Disciplined (e : Expr) : Prop := ∀ o, Overlay.ofExpr? e = some o → o.Disciplined

private theorem Expr.disciplined_of_made {e : Expr} (h : e.Made) : e.Disciplined := by
  intro o ho
  cases e with
  | overlay s r p n =>
    cases ho
    obtain ⟨_, _, _, _, h⟩ := h
    exact Overlay.disciplined_of_ofOperands h
  | _ => cases ho

private theorem Expr.Obtainable.everywhere_disciplined {e : Expr} (h : e.Obtainable) :
    e.Everywhere Disciplined :=
  fun x hx => disciplined_of_made (h.everywhere_sound x hx).made

namespace Overlay

/-- An overlay is built unless an operand does not fit, and the first such operand is reported.
    Every overlay that building, taking operands out, updates and passes lead to has operands of
    the types of one, wherever in an expression it is. -/
theorem first_misfit_or_disciplined :
    (∀ source replacement start length : Option Expr,
      (∀ err, ofOperands source replacement start length = .error err ↔
        ∃ i, Misfit source replacement start length i err ∧
          ∀ j < i, FitsAt source replacement start length j) ∧
      ((∃ o, ofOperands source replacement start length = .ok o) ↔
        ∀ i, FitsAt source replacement start length i) ∧
      ∀ o, ofOperands source replacement start length = .ok o → o.Disciplined) ∧
    (∀ e : Expr, e.Obtainable → e.Everywhere Expr.Disciplined) ∧
    (∀ (σ : Type) (f : Expr → StateM σ (Option Expr)),
      (∀ node s, node.Obtainable → ∀ x ∈ (f node s).1, x.Obtainable) →
      ∀ (e e' : Expr) (s s' : σ), e.Obtainable → e.replaceWith f s = .ok e' s' →
        e'.Everywhere Expr.Disciplined) := by
  refine ⟨fun source replacement start length => ?_, fun e he => he.everywhere_disciplined, ?_⟩
  · exact ⟨fun err => ofOperands_eq_error_iff, exists_ofOperands_iff,
      fun o ho => disciplined_of_ofOperands ho⟩
  · intro σ f hf e e' s s' he h
    exact (he.replaceWith hf h).everywhere_disciplined

/-- A text is no replacement in a byte string, and is reported before the position that is a text
    as well. A `NULL` is one, and the overlay is binary wherever a pass has put it. -/
theorem first_misfit_or_disciplined_payload :
    let payload : Expr := .column ⟨none, "payload", .blob⟩
    let text : Expr := .bind (.text "1")
    let o : Overlay := ⟨payload, .null .blob, .bind (.int 1), none⟩
    ofOperands (some payload) (some text) (some text) none =
        .error (.typeConformance .overlay 1 (.ofFamily .binary) (.varchar none)) ∧
      ofOperands (some payload) none (some (.bind (.int 1))) none = .ok o ∧ o.Disciplined ∧
      (Expr.not payload).replaceWith
        (fun node => pure (if node.kind = .column then some o.toExpr else none)) () =
          .ok (.not o.toExpr) () ∧
      (Expr.not o.toExpr).Everywhere Expr.Disciplined := by
  intro payload text o
  have hpayload : payload.Obtainable := .column _
  have ho : o.toExpr.Obtainable := by
    refine @Expr.Obtainable.overlay (some payload) none (some (.bind (.int 1))) none o
      ?_ ?_ ?_ ?_ rfl
    · exact fun e he => Option.some.inj he ▸ hpayload
    · exact fun e he => nomatch he
    · exact fun e he => Option.some.inj he ▸ .bind _
    · exact fun e he => nomatch he
  have hmisfit : Misfit (some payload) (some text) (some text) none 1
      (.typeConformance .overlay 1 (.ofFamily .binary) (.varchar none)) :=
    .replacementBeside (s := payload) (r := text) rfl (by decide) rfl (by decide) (by decide)
  have hfirst : ∀ j < 1, FitsAt (some payload) (some text) (some text) none j := by
    intro j hj
    obtain rfl : j = 0 := Nat.lt_one_iff.1 hj
    exact fitsAt_source_iff.2 (.inr rfl)
  have hpass : (Expr.not payload).replaceWith
      (fun node => pure (if node.kind = .column then some o.toExpr else none)) () =
        .ok (.not o.toExpr) () := by
    rw [Expr.replaceWith_eq, show (Expr.not payload).positions = [(0, payload)] from rfl]
    simp only [List.foldlM_cons, Expr.replaceWith_leaf (show payload.slots = [] from rfl)]
    rfl
  obtain ⟨herror, -, -⟩ := first_misfit_or_disciplined.1 (some payload) (some text) (some text) none
  obtain ⟨-, -, hbuilt⟩ :=
    first_misfit_or_disciplined.1 (some payload) none (some (.bind (.int 1))) none
  refine ⟨(herror _).2 ⟨1, hmisfit, hfirst⟩, rfl, hbuilt o rfl, hpass,
    first_misfit_or_disciplined.2.2 Unit _ ?_ _ _ () () (.not hpayload) hpass⟩
  intro node s _ x hx
  change x ∈ ite _ _ _ at hx
  split at hx
  · exact Option.some.inj hx ▸ ho
  · cases hx

end Overlay

end SqlExpr
