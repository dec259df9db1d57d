-- SUMMARY: What overlays and both of their rewrites evaluate to.
import SqlExpr.Overlay.Rewrite
import SqlExpr.Proofs.Semantics.Lists

/-!
# Evaluating overlays

An overlay that evaluates at all is the splice of two strings of one kind, or `NULL`
because an operand is (`Datum.overlay?_cases`). The substring form evaluates to the same
everywhere (`Overlay.eval_emulated`), the form with `INSERT` where the start lies inside
of the source (`Overlay.eval_alternate`).
-/

namespace SqlExpr

/-! ## Splices -/

namespace Splice

variable {α : Type _}

theorem slice_one (u : List α) (stop : Int) : slice u 1 stop = u.take (stop - 1).toNat := by
  simp [slice]

/-- Head, replacement and tail make up the splice. -/
private theorem slice_append_sliceFrom (u v : List α) (start length : Int) :
    slice u 1 (1 + (start - 1)) ++ v ++ sliceFrom u (start + length) = splice u v start length := by
  have hhead : 1 + (start - 1) - 1 = start - 1 := by omega
  have htail : start + length - 1 = start - 1 + length := by omega
  rw [slice_one, sliceFrom, splice, hhead, htail]

/-- Inside of the sequence an insertion is a splice. -/
theorem insert_eq_splice {u : List α} (v : List α) {start : Int} (length : Int)
    (h : 1 ≤ start) (hu : start ≤ u.length) :
    insert u v start length = splice u v start length := by
  have hinside : ¬(start < 1 ∨ (u.length : Int) < start) := by omega
  have htail : start + length - 1 = start - 1 + length := by omega
  rw [insert, if_neg hinside, slice_one, sliceFrom, splice, htail]

end Splice

/-! ## Data -/

/-- What the units of a string are. -/
inductive StringKind
  | characters
  | bytes

def StringKind.Element : StringKind → Type
  | .characters => Char
  | .bytes => UInt8

/-- The string of the given units. -/
def Datum.string : (k : StringKind) → List k.Element → Datum
  | .characters => .text
  | .bytes => .bytes

namespace Datum

/-- The number of units of a string, `NULL` for anything else. -/
def units : Datum → Datum
  | .text u => .int u.length
  | .bytes u => .int u.length
  | _ => .null

section

variable {k : StringKind} {u v : List k.Element}

theorem string_inj : string k u = string k v ↔ u = v := by
  cases k with
  | characters => exact ⟨Datum.text.inj, congrArg _⟩
  | bytes => exact ⟨Datum.bytes.inj, congrArg _⟩

theorem units_string : (string k u).units = .int u.length := by
  cases k <;> rfl

private theorem string_ne_null : string k u ≠ .null := by
  cases k <;> exact Datum.noConfusion

theorem isTextOrNull_or_isBytesOrNull_string :
    (string k u).isTextOrNull ∨ (string k u).isBytesOrNull := by
  cases k
  · exact .inl rfl
  · exact .inr rfl

theorem insert_string {start n : Int} :
    call? .insert [string k u, .int start, .int n, string k v] =
      some (string k (Splice.insert u v start n)) := by
  cases k <;> rfl

end

theorem isIntOrNull_iff {d : Datum} : d.isIntOrNull = true ↔ d = .null ∨ ∃ n, d = .int n := by
  cases d <;> simp [isIntOrNull]

theorem isTextOrNull_iff {d : Datum} : d.isTextOrNull = true ↔ d = .null ∨ ∃ u, d = .text u := by
  cases d <;> simp [isTextOrNull]

theorem isBytesOrNull_iff {d : Datum} : d.isBytesOrNull = true ↔ d = .null ∨ ∃ u, d = .bytes u := by
  cases d <;> simp [isBytesOrNull]

/-- The operands of an overlay are of the right kinds, and one of them is `NULL`. -/
structure OverlayOfNull (source replacement start length : Datum) : Prop where
  strings : source.isTextOrNull ∧ replacement.isTextOrNull ∨
    source.isBytesOrNull ∧ replacement.isBytesOrNull
  numbers : start.isIntOrNull ∧ length.isIntOrNull
  null : source = .null ∨ replacement = .null ∨ start = .null ∨ length = .null

/-- How an overlay of data comes out: as a splice of strings, or as `NULL`. -/
theorem overlay?_cases {source replacement start v : Datum} {length : Option Datum}
    (h : overlay? source replacement start length = some v) :
    (∃ (k : StringKind) (u w : List k.Element) (p n : Int), source = string k u ∧
      replacement = string k w ∧ start = .int p ∧ length.getD replacement.units = .int n ∧
      v = string k (Splice.splice u w p n)) ∨
    (OverlayOfNull source replacement start (length.getD replacement.units) ∧ v = .null) := by
  unfold overlay? at h
  split at h
  · rename_i hfits
    simp only [overlayFits, Bool.and_eq_true, Bool.or_eq_true] at hfits
    obtain ⟨⟨hstrings, hstart⟩, hlength⟩ := hfits
    split at h
    · cases h; exact .inl ⟨.characters, _, _, _, _, rfl, rfl, rfl, rfl, rfl⟩
    · cases h; exact .inl ⟨.characters, _, _, _, _, rfl, rfl, rfl, rfl, rfl⟩
    · cases h; exact .inl ⟨.bytes, _, _, _, _, rfl, rfl, rfl, rfl, rfl⟩
    · cases h; exact .inl ⟨.bytes, _, _, _, _, rfl, rfl, rfl, rfl, rfl⟩
    · rename_i htext htextLength hbytes hbytesLength
      cases h
      refine .inr ⟨⟨hstrings, ⟨hstart, ?_⟩, ?_⟩, rfl⟩
      · cases length with
        | none => cases replacement <;> rfl
        | some n => simpa using hlength
      · simp only [isTextOrNull_iff, isBytesOrNull_iff, isIntOrNull_iff] at hstrings hstart
        rcases hstart with rfl | ⟨p, rfl⟩
        · simp
        rcases hstrings with ⟨rfl | ⟨u, rfl⟩, rfl | ⟨w, rfl⟩⟩ | ⟨rfl | ⟨u, rfl⟩, rfl | ⟨w, rfl⟩⟩ <;>
          try simp
        · cases length with
          | none => exact (htext u w p rfl rfl rfl rfl).elim
          | some n =>
            rcases isIntOrNull_iff.1 (by simpa using hlength) with rfl | ⟨n, rfl⟩
            · rfl
            · exact (htextLength u w p n rfl rfl rfl rfl).elim
        · cases length with
          | none => exact (hbytes u w p rfl rfl rfl rfl).elim
          | some n =>
            rcases isIntOrNull_iff.1 (by simpa using hlength) with rfl | ⟨n, rfl⟩
            · rfl
            · exact (hbytesLength u w p n rfl rfl rfl rfl).elim
  · cases h

/-- A function of a `NULL` is `NULL`. -/
private theorem call?_of_null {f : Builtin} {args : List Datum} (h : .null ∈ args) :
    call? f args = some .null :=
  if_pos h

/-- The substring form of an overlay on data: head and replacement, then the tail. -/
def pieceTogether? (f : Builtin) (source replacement start length : Datum) : Option Datum := do
  let head ← call? .substring [source, .int 1, ← arith? .sub start (.int 1)]
  let front ← call? f [head, replacement]
  let tail ← call? .substring [source, ← arith? .add start length]
  call? f [front, tail]

variable {f : Builtin}

private theorem pieceTogether?_string (hf : f = .concat ∨ f = .binaryConcat) {k : StringKind}
    (u w : List k.Element) (start length : Int) :
    pieceTogether? f (string k u) (string k w) (.int start) (.int length) =
      some (string k (Splice.splice u w start length)) := by
  rw [← Splice.slice_append_sliceFrom]
  cases k <;> rcases hf with rfl | rfl <;> rfl

private theorem pieceTogether?_null (hf : f = .concat ∨ f = .binaryConcat)
    {source replacement start length : Datum}
    (h : OverlayOfNull source replacement start length) :
    pieceTogether? f source replacement start length = some .null := by
  obtain ⟨hstrings, ⟨hstart, hlength⟩, hnull⟩ := h
  simp only [isTextOrNull_iff, isBytesOrNull_iff, isIntOrNull_iff] at hstrings hstart hlength
  rcases hstart with rfl | ⟨p, rfl⟩ <;> rcases hlength with rfl | ⟨n, rfl⟩ <;>
    rcases hstrings with ⟨rfl | ⟨u, rfl⟩, rfl | ⟨w, rfl⟩⟩ | ⟨rfl | ⟨u, rfl⟩, rfl | ⟨w, rfl⟩⟩ <;>
    rcases hf with rfl | rfl <;>
    first | rfl | simp at hnull

end Datum

/-! ## Expressions -/

namespace Overlay

variable {env : Column → Datum} {o : Overlay} {s r p v : Datum} {n : Option Datum} {start : Int}

/-- The data of the operands of an overlay. -/
structure Operands (env : Column → Datum) (o : Overlay) (s r p : Datum) (n : Option Datum) :
    Prop where
  source : o.source.eval env = some s
  replacement : o.replacement.eval env = some r
  start : o.start.eval env = some p
  length : Expr.evalOption env o.length = some n

theorem eval_toExpr : o.toExpr.eval env = some v ↔
    ∃ s r p n, Operands env o s r p n ∧ Datum.overlay? s r p n = some v := by
  simp only [toExpr, Expr.eval, Option.bind_eq_bind, Option.bind_eq_some_iff]
  constructor
  · rintro ⟨s, hs, r, hr, p, hp, n, hn, hv⟩
    exact ⟨s, r, p, n, ⟨hs, hr, hp, hn⟩, hv⟩
  · rintro ⟨s, r, p, n, ⟨hs, hr, hp, hn⟩, hv⟩
    exact ⟨s, hs, r, hr, p, hp, n, hn, hv⟩

/-- The length that rewrites use: the given one, or the number of units of the replacement. -/
theorem eval_effectiveLength (h : Operands env o s r p n)
    (hstring : r.isTextOrNull ∨ r.isBytesOrNull) :
    o.effectiveLength.eval env = some (n.getD r.units) := by
  have hlength := h.length
  unfold effectiveLength
  cases hgiven : o.length with
  | some e =>
    rw [hgiven] at hlength
    obtain ⟨d, hd, rfl⟩ := Expr.evalOption_some.1 hlength
    exact hd
  | none =>
    rw [hgiven] at hlength
    cases hlength
    simp only [Datum.isTextOrNull_iff, Datum.isBytesOrNull_iff] at hstring
    unfold lengthFunction
    rcases hstring with (rfl | ⟨w, rfl⟩) | (rfl | ⟨w, rfl⟩) <;> split <;>
      simp [Expr.eval, Expr.evalList, h.replacement, Datum.call?, Datum.result?, Datum.units]

theorem operands_strings (h : Datum.overlay? s r p n = some v) :
    r.isTextOrNull ∨ r.isBytesOrNull := by
  rcases Datum.overlay?_cases h with ⟨k, u, w, p, n, _, rfl, _⟩ | ⟨hnull, _⟩
  · exact Datum.isTextOrNull_or_isBytesOrNull_string
  · exact hnull.strings.imp And.right And.right

theorem concatFunction_eq (o : Overlay) :
    o.concatFunction = .concat ∨ o.concatFunction = .binaryConcat := by
  unfold concatFunction
  split
  · exact .inr rfl
  · exact .inl rfl

/-- The substring form evaluates as the overlay does. -/
theorem eval_emulated (h : o.toExpr.eval env = some v) : o.emulated.eval env = some v := by
  obtain ⟨s, r, p, n, hoperands, hv⟩ := eval_toExpr.1 h
  have hlength := eval_effectiveLength hoperands (operands_strings hv)
  have hdata : o.emulated.eval env =
      Datum.pieceTogether? o.concatFunction s r p (n.getD r.units) := by
    simp [emulated, head, tail, Expr.eval, Expr.evalList, Expr.sub, Expr.add, Expr.literal,
      Constant.literal, Value.datum?, hoperands.source, hoperands.replacement, hoperands.start,
      hlength, Datum.pieceTogether?, Option.bind_assoc]
  rw [hdata]
  rcases Datum.overlay?_cases hv with
    ⟨k, u, w, start, len, rfl, rfl, rfl, hlen, rfl⟩ | ⟨hnull, rfl⟩
  · rw [hlen]
    exact Datum.pieceTogether?_string o.concatFunction_eq u w start len
  · exact Datum.pieceTogether?_null o.concatFunction_eq hnull

/-- The start lies inside of the source: at a position from 1 to the number of its units. -/
def StartsInside (env : Column → Datum) (o : Overlay) : Prop :=
  ∃ s p length, o.source.eval env = some s ∧ o.start.eval env = some (.int p) ∧
    s.units = .int length ∧ 1 ≤ p ∧ p ≤ length

/-- An operand that is present is `NULL`. -/
def HasNull (env : Column → Datum) (o : Overlay) : Prop :=
  o.source.eval env = some .null ∨ o.replacement.eval env = some .null ∨
    o.start.eval env = some .null ∨ Expr.evalOption env o.length = some (some .null)

/-- Where no operand is `NULL`, such an overlay starts inside of its source. -/
private theorem start_bounds (hstart : o.HasNull env ∨ o.StartsInside env)
    (h : Operands env o s r (.int start) n) {length len : Int} (hs : s.units = .int length)
    (hr : r ≠ .null) (hn : n.getD r.units = .int len) : 1 ≤ start ∧ start ≤ length := by
  have hnotNull : ¬o.HasNull env := by
    unfold HasNull
    rw [h.source, h.replacement, h.start, h.length]
    rintro (hnull | hnull | hnull | hnull)
    · cases hnull; cases hs
    · exact hr (Option.some.inj hnull)
    · cases hnull
    · cases hnull; cases hn
  obtain ⟨s', p', length', hs', hp', hlength', hfirst, hlast⟩ := hstart.resolve_left hnotNull
  cases hs'.symm.trans h.source
  cases hp'.symm.trans h.start
  cases hlength'.symm.trans hs
  exact ⟨hfirst, hlast⟩

/-- What the form with `INSERT` comes to on the data of the operands. -/
theorem eval_alternate_eq (h : Operands env o s r p n) (hstring : r.isTextOrNull ∨ r.isBytesOrNull) :
    o.alternate.eval env = Datum.call? .insert [s, p, n.getD r.units, r] := by
  simp [alternate, Expr.eval, Expr.evalList, h.source, h.replacement, h.start,
    eval_effectiveLength h hstring]

/-- The form with `INSERT` evaluates as the overlay does, if the start lies inside of the source
    or an operand is `NULL`. -/
theorem eval_alternate (h : o.toExpr.eval env = some v)
    (hstart : o.HasNull env ∨ o.StartsInside env) : o.alternate.eval env = some v := by
  obtain ⟨s, r, p, n, hoperands, hv⟩ := eval_toExpr.1 h
  rw [eval_alternate_eq hoperands (operands_strings hv)]
  rcases Datum.overlay?_cases hv with
    ⟨k, u, w, start, len, rfl, rfl, rfl, hlen, rfl⟩ | ⟨hnull, rfl⟩
  · obtain ⟨hfirst, hlast⟩ :=
      start_bounds hstart hoperands Datum.units_string Datum.string_ne_null hlen
    rw [hlen, Datum.insert_string, Splice.insert_eq_splice w len hfirst hlast]
  · apply Datum.call?_of_null
    rcases hnull.null with rfl | rfl | rfl | hlen
    · simp
    · simp
    · simp
    · simp [hlen]

end Overlay

end SqlExpr
