-- SUMMARY: Which JSON numbers stand for unsigned integers of 64 bits, and how these are written.
import SqlExpr.Json.Grammar

/-!
# Unsigned integers in JSON texts

A number stands for an unsigned integer if it has no sign, fraction or exponent and 64 bits hold it
(`Number.value?_eq_natural_iff`). The decimal digits of an integer are such a number
(`Number.exists_spelled_repr`), so the largest integers are read back as they were written.
-/

namespace SqlExpr.Json.Number

/-! ## Digits that 64 bits hold -/

/-- More digits make no smaller number. -/
private theorem le_foldl (n : Nat) (ds : List Nat) : n ≤ ds.foldl (fun n d => n * 10 + d) n := by
  induction ds generalizing n with
  | nil => exact Nat.le_refl n
  | cons d ds ih =>
    have := ih (n * 10 + d)
    rw [List.foldl_cons]
    omega

/-- All digits are taken exactly if 64 bits hold the number. -/
private theorem takeDigits_eq_nil_iff {n m : Nat} (hn : n < UInt64.size) (ds : List Nat) :
    takeDigits n ds = (m, []) ↔ ds.foldl (fun n d => n * 10 + d) n = m ∧ m < UInt64.size := by
  induction ds generalizing n with
  | nil =>
    simp only [takeDigits, List.foldl_nil, Prod.mk.injEq, and_true]
    exact ⟨fun h => ⟨h, h ▸ hn⟩, And.left⟩
  | cons d ds ih =>
    rw [List.foldl_cons, takeDigits]
    split
    · next hd => exact ih hd
    · next hd =>
      have hle := le_foldl (n * 10 + d) ds
      constructor
      · simp
      · rintro ⟨rfl, hlt⟩
        omega

private theorem float?_ne_natural {negative : Bool} {n : Nat} {e : Int} {limit : UInt64} :
    float? negative n e ≠ some (.natural limit) := by
  unfold float?
  cases scale? n e <;> simp

/-- A number stands for an unsigned integer exactly if it is written as one, and 64 bits hold it. -/
theorem value?_eq_natural_iff {n : Number} {limit : UInt64} :
    n.value? = some (.natural limit) ↔ ∃ digits, n = ⟨false, digits, none, none⟩ ∧
      ofDigits digits = limit.toNat := by
  obtain ⟨negative, whole, fraction, power⟩ := n
  have hdigits := @takeDigits_eq_nil_iff 0
  obtain ⟨significand, left, htake⟩ : ∃ significand left,
      takeDigits 0 whole = (significand, left) := ⟨_, _, rfl⟩
  simp only [value?, htake]
  constructor
  · intro h
    split at h
    · -- no fraction, no exponent, and no digits that 64 bits do not hold
      split at h
      · next hnegative =>
        obtain ⟨hvalue, hlt⟩ := (hdigits (by decide) whole).1 htake
        simp only [Option.some.injEq, NumberValue.natural.injEq] at h
        refine ⟨whole, ?_, ?_⟩
        · simpa using hnegative
        · rw [ofDigits, hvalue, ← h, UInt64.toNat_ofNat_of_lt' hlt]
      · split at h
        · exact absurd h float?_ne_natural
        · cases h
    · exact absurd h float?_ne_natural
  · rintro ⟨digits, heq, hvalue⟩
    cases heq
    have hlt : limit.toNat < UInt64.size := limit.toNat_lt
    cases htake.symm.trans ((hdigits (by decide) whole).2 ⟨hvalue, hlt⟩)
    simp

/-! ## Decimal digits -/

theorem ofDigits_append (ds : List Nat) (d : Nat) :
    ofDigits (ds ++ [d]) = ofDigits ds * 10 + d := by
  simp [ofDigits]

/-- The decimal digits of a number are written without leading zeros. -/
private theorem exists_whole_toDigits (n : Nat) :
    ∃ ds, Whole ds (Nat.toDigits 10 n) ∧ ofDigits ds = n := by
  induction n using Nat.strongRecOn with
  | _ n ih =>
  rcases Nat.lt_or_ge n 10 with hn | hn
  · refine ⟨[n], ⟨⟨List.cons_ne_nil n [], ?_, ?_⟩, ?_⟩, by simp [ofDigits]⟩
    · exact fun d hd => List.mem_singleton.1 hd ▸ hn
    · rw [Nat.toDigits_of_lt_base hn, List.map_singleton]
    · exact fun h => congrArg (fun d => [d]) (Option.some.inj h)
  · obtain ⟨ds, ⟨⟨hne, hlt, htext⟩, hleading⟩, hvalue⟩ := ih (n / 10) (by omega)
    refine ⟨ds ++ [n % 10], ⟨⟨by simp, ?_, ?_⟩, ?_⟩, ?_⟩
    · intro d hd
      rcases List.mem_append.1 hd with hd | hd
      · exact hlt d hd
      · exact List.mem_singleton.1 hd ▸ Nat.mod_lt n (by decide)
    · rw [Nat.toDigits_of_base_le (by decide) hn, htext, List.map_append, List.map_singleton]
    · -- a leading zero would have to be the whole of `n / 10`
      intro hzero
      rw [List.head?_append, Option.or_of_isSome (List.isSome_head?.2 hne)] at hzero
      rw [hleading hzero] at hvalue
      have : 0 = n / 10 := hvalue
      omega
    · rw [ofDigits_append, hvalue]
      omega

/-- A number as it is printed stands for itself. -/
theorem exists_spelled_repr (n : Nat) :
    ∃ ds, Spelled ⟨false, ds, none, none⟩ (Nat.toDigits 10 n) ∧ ofDigits ds = n := by
  obtain ⟨ds, hwhole, hvalue⟩ := exists_whole_toDigits n
  have h := Spelled.mk (n := ⟨false, ds, none, none⟩) hwhole .absent .absent
  refine ⟨ds, ?_, hvalue⟩
  simpa using h

end SqlExpr.Json.Number
