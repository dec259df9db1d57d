-- SUMMARY: What any lawful library reads from an object, and that it reads back what it writes.
import SqlExpr.Json.Library
import SqlExpr.Proofs.Json.Naturals
import Mathlib.Data.List.Nodup
import Mathlib.Data.List.Perm.Basic
import Mathlib.Tactic.Choose

/-!
# Records through a lawful library

An object gives a record the default values but for the fields that its members name, each at most
once and with a value that is acceptable for it (`Library.Overrides`, `record?_ofMembers_iff`). What
is written of a value is the text of one that is read as it (`Shape.exists_written`), so a record is
read back from the object and from the array that are written of it.
-/

namespace SqlExpr.Json

/-- The object with the members. -/
def Tree.ofMembers (members : List (String × Tree)) : Tree :=
  .object (members.map fun (key, v) => (some key, v))

variable {L : Library} {R : Record} {members ms : List (String × Tree)} {f : R.Field}
  {key : String} {v : Tree} {x y : R.Values}

/-! ## Members -/

namespace Record

/-- How often the members name a field. -/
def namings (R : Record) (members : List (String × Tree)) (f : R.Field) : Nat :=
  (members.map Prod.fst).count (R.keys.name f)

/-- The members that name fields. -/
def known (R : Record) (members : List (String × Tree)) : List (String × Tree) :=
  members.filter fun (key, _) => (R.keys.ofName? key).isSome

theorem namings_cons : R.namings ((key, v) :: ms) f =
    R.namings ms f + if key = R.keys.name f then 1 else 0 := by
  simp [namings, List.count_cons]

theorem namings_pos_iff : 0 < R.namings members f ↔ ∃ v, (R.keys.name f, v) ∈ members := by
  simp [namings, List.count_pos_iff]

private theorem namings_cons_self (hnew : R.namings ms f = 0) :
    R.namings ((R.keys.name f, v) :: ms) f = 1 := by
  rw [namings_cons, if_pos rfl, hnew]

private theorem namings_cons_of_ne {g : R.Field} (hg : g ≠ f) :
    R.namings ((R.keys.name f, v) :: ms) g = R.namings ms g := by
  rw [namings_cons, if_neg fun h => hg (R.keys.name_inj h).symm, Nat.add_zero]

/-- The field of a member is another one than a field that no member names. -/
private theorem ne_of_mem {g : R.Field} (hnew : R.namings ms f = 0)
    (hv : (R.keys.name g, v) ∈ ms) : g ≠ f := by
  rintro rfl
  exact absurd hnew (Nat.ne_of_gt (namings_pos_iff.2 ⟨v, hv⟩))

private theorem mem_known :
    (R.keys.name f, v) ∈ R.known members ↔ (R.keys.name f, v) ∈ members := by
  simp [known, R.keys.ofName?_eq_some_iff.2 rfl]

private theorem namings_known (members : List (String × Tree)) (f : R.Field) :
    R.namings (R.known members) f = R.namings members f := by
  unfold namings known
  rw [List.count_eq_countP, List.count_eq_countP, List.countP_map, List.countP_map,
    List.countP_filter]
  refine List.countP_congr fun m _ => ?_
  simp only [Function.comp_apply, beq_iff_eq, Bool.and_eq_true, and_iff_left_iff_imp]
  intro hkey
  rw [R.keys.ofName?_eq_some_iff.2 hkey.symm, Option.isSome_some]

end Record

/-! ## Overriding defaults -/

namespace Library

/-- The values are the default ones in which exactly the fields that the members name are
    overridden, each by one member with a value that is acceptable for it. -/
structure Overrides (L : Library) (R : Record) (members : List (String × Tree)) (x : R.Values) :
    Prop where
  once (f : R.Field) : R.namings members f ≤ 1
  named (f : R.Field) (v : Tree) (h : (R.keys.name f, v) ∈ members) :
    L.value? (R.shape f) v = some (x f)
  unnamed (f : R.Field) (h : R.namings members f = 0) : x f = R.default f

/-- All fields that the members name have values that are acceptable for them. -/
def Acceptable (L : Library) (R : Record) (members : List (String × Tree)) : Prop :=
  ∀ (f : R.Field) (v : Tree), (R.keys.name f, v) ∈ members → ∃ y, L.value? (R.shape f) v = some y

namespace Overrides

theorem nil : L.Overrides R [] R.default where
  once _ := Nat.zero_le 1
  named := nofun
  unnamed _ _ := rfl

/-- Only members that name fields count, and their order does not. -/
theorem of_perm {members' : List (String × Tree)}
    (hperm : (R.known members).Perm (R.known members')) (h : L.Overrides R members x) :
    L.Overrides R members' x := by
  have hnamings (f : R.Field) : R.namings members' f = R.namings members f := by
    rw [← Record.namings_known members', ← Record.namings_known members]
    exact (hperm.map Prod.fst).count_eq (R.keys.name f) |>.symm
  exact {
    once := fun f => hnamings f ▸ h.once f
    named := fun f v hv =>
      h.named f v (Record.mem_known.1 (hperm.mem_iff.2 (Record.mem_known.2 hv)))
    unnamed := fun f h0 => h.unnamed f (hnamings f ▸ h0) }

/-- Members leave no choice of values. -/
theorem unique (hx : L.Overrides R members x) (hy : L.Overrides R members y) : x = y := by
  funext f
  rcases Nat.eq_zero_or_pos (R.namings members f) with h | h
  · rw [hx.unnamed f h, hy.unnamed f h]
  · obtain ⟨v, hv⟩ := Record.namings_pos_iff.1 h
    exact Option.some.inj ((hx.named f v hv).symm.trans (hy.named f v hv))

theorem cons_unknown_iff (hkey : ∀ f, R.keys.name f ≠ key) :
    L.Overrides R ((key, v) :: ms) x ↔ L.Overrides R ms x := by
  have hnamings (f : R.Field) : R.namings ((key, v) :: ms) f = R.namings ms f := by
    rw [Record.namings_cons, if_neg (hkey f).symm, Nat.add_zero]
  have hmem (f : R.Field) (w : Tree) :
      (R.keys.name f, w) ∈ (key, v) :: ms ↔ (R.keys.name f, w) ∈ ms := by
    simp [hkey f]
  constructor
  · intro h
    exact ⟨fun f => hnamings f ▸ h.once f, fun f w hw => h.named f w ((hmem f w).2 hw),
      fun f h0 => h.unnamed f ((hnamings f).trans h0)⟩
  · intro h
    exact ⟨fun f => (hnamings f).symm ▸ h.once f, fun f w hw => h.named f w ((hmem f w).1 hw),
      fun f h0 => h.unnamed f ((hnamings f).symm.trans h0)⟩

/-- A member in front overrides one field more, if no other names it. -/
private theorem cons_known {y : R.Value f} (hnew : R.namings ms f = 0)
    (hy : L.value? (R.shape f) v = some y) (hx : L.Overrides R ms x) :
    L.Overrides R ((R.keys.name f, v) :: ms) (R.keys.set x f y) where
  once g := by
    by_cases hg : g = f
    · subst hg
      exact Nat.le_of_eq (Record.namings_cons_self hnew)
    · exact (Record.namings_cons_of_ne hg).symm ▸ hx.once g
  named g w hw := by
    rcases List.mem_cons.1 hw with heq | hw
    · obtain ⟨hkey, rfl⟩ := Prod.mk.inj heq
      obtain rfl := R.keys.name_inj hkey
      rw [hy, R.keys.set_self]
    · rw [R.keys.set_of_ne (Record.ne_of_mem hnew hw)]
      exact hx.named g w hw
  unnamed g h0 := by
    have hg : g ≠ f := by
      rintro rfl
      exact absurd ((Record.namings_cons_self hnew).symm.trans h0) Nat.one_ne_zero
    rw [R.keys.set_of_ne hg]
    exact hx.unnamed g (Record.namings_cons_of_ne hg ▸ h0)

/-- Without the member that names a field, the field has its default. -/
private theorem of_cons_known (hnew : R.namings ms f = 0)
    (h : L.Overrides R ((R.keys.name f, v) :: ms) x) :
    L.Overrides R ms (R.keys.set x f (R.default f)) where
  once g := Nat.le_of_add_right_le (Record.namings_cons ▸ h.once g)
  named g w hw := by
    rw [R.keys.set_of_ne (Record.ne_of_mem hnew hw)]
    exact h.named g w (List.mem_cons_of_mem _ hw)
  unnamed g h0 := by
    by_cases hg : g = f
    · subst hg
      exact R.keys.set_self
    · rw [R.keys.set_of_ne hg]
      exact h.unnamed g ((Record.namings_cons_of_ne hg).trans h0)

/-- A member whose key does not come again overrides its field, the others what they name. -/
theorem cons_known_iff (hnew : R.namings ms f = 0) :
    L.Overrides R ((R.keys.name f, v) :: ms) x ↔
      ∃ y z, L.value? (R.shape f) v = some y ∧ L.Overrides R ms z ∧ R.keys.set z f y = x := by
  constructor
  · intro h
    refine ⟨x f, _, h.named f v List.mem_cons_self, h.of_cons_known hnew, ?_⟩
    funext g
    by_cases hg : g = f
    · subst hg
      exact R.keys.set_self
    · rw [R.keys.set_of_ne hg, R.keys.set_of_ne hg]
  · rintro ⟨y, z, hy, hz, rfl⟩
    exact hz.cons_known hnew hy

/-- The object that lists all fields overrides each of them. -/
theorem all {v : R.Field → Tree} (hv : ∀ f, L.value? (R.shape f) (v f) = some (x f)) :
    L.Overrides R (R.keys.all.map fun f => (R.keys.name f, v f)) x where
  once f := by
    rw [Record.namings, List.map_map]
    exact List.nodup_iff_count_le_one.1
      (R.keys.nodup_all.map fun _ _ => R.keys.name_inj) (R.keys.name f)
  named f w hw := by
    obtain ⟨g, -, hg⟩ := List.mem_map.1 hw
    obtain ⟨hkey, rfl⟩ := Prod.mk.inj hg
    obtain rfl := R.keys.name_inj hkey
    exact hv g
  unnamed f h0 := by
    have hmem := List.mem_map_of_mem (f := fun f => (R.keys.name f, v f)) (R.keys.mem_all f)
    exact absurd h0 (Nat.ne_of_gt (Record.namings_pos_iff.2 ⟨v f, hmem⟩))

/-- Members that name each field at most once, with acceptable values, override them. -/
theorem exists_of_acceptable (honce : ∀ f, R.namings members f ≤ 1)
    (hms : L.Acceptable R members) : ∃ x, L.Overrides R members x := by
  induction members with
  | nil => exact ⟨R.default, .nil⟩
  | cons m ms ih =>
    obtain ⟨key, v⟩ := m
    have hle (f : R.Field) : R.namings ms f ≤ 1 :=
      Nat.le_of_add_right_le (Record.namings_cons ▸ honce f)
    obtain ⟨x, hx⟩ := ih hle fun f w hw => hms f w (List.mem_cons_of_mem _ hw)
    cases hkey : R.keys.ofName? key with
    | none => exact ⟨x, (cons_unknown_iff (R.keys.ofName?_eq_none_iff.1 hkey)).2 hx⟩
    | some f =>
      obtain rfl := R.keys.ofName?_eq_some_iff.1 hkey
      obtain ⟨y, hy⟩ := hms f v List.mem_cons_self
      have hself := honce f
      rw [Record.namings_cons, if_pos rfl] at hself
      exact ⟨_, (cons_known_iff (by omega)).2 ⟨y, x, hy, hx, rfl⟩⟩

end Overrides

namespace Lawful

variable (hL : L.Lawful)
include hL

private theorem record?_ofMembers_known (hnew : R.namings ms f = 0) :
    L.record? R (.ofMembers ((R.keys.name f, v) :: ms)) = do
      let y ← L.value? (R.shape f) v
      let x ← L.record? R (.ofMembers ms)
      return R.keys.set x f y := by
  refine hL.record?_known fun w hw => ?_
  have hmem : (R.keys.name f, w) ∈ ms := by simpa using hw
  exact absurd hnew (Nat.ne_of_gt (Record.namings_pos_iff.2 ⟨w, hmem⟩))

/-- An object is acceptable exactly if its members override fields, and gives the values with just
    these fields overridden. -/
theorem record?_ofMembers_iff :
    L.record? R (.ofMembers members) = some x ↔ L.Overrides R members x := by
  induction members generalizing x with
  | nil =>
    rw [Tree.ofMembers, List.map_nil, hL.record?_nil, Option.some.injEq]
    exact ⟨fun h => h ▸ .nil, fun h => Overrides.nil.unique h⟩
  | cons m ms ih =>
    obtain ⟨key, v⟩ := m
    cases hkey : R.keys.ofName? key with
    | none =>
      have hunknown := R.keys.ofName?_eq_none_iff.1 hkey
      rw [Overrides.cons_unknown_iff hunknown, ← ih]
      exact Eq.congr_left (hL.record?_unknown hunknown)
    | some f =>
      obtain rfl := R.keys.ofName?_eq_some_iff.1 hkey
      rcases Nat.eq_zero_or_pos (R.namings ms f) with hnew | htwice
      · rw [hL.record?_ofMembers_known hnew, Overrides.cons_known_iff hnew]
        simp only [Option.bind_eq_bind, Option.bind_eq_some_iff, ih, Option.pure_def,
          Option.some.injEq, exists_and_left]
      · obtain ⟨w, hw⟩ := Record.namings_pos_iff.1 htwice
        have hnone : L.record? R (.ofMembers ((R.keys.name f, v) :: ms)) = none :=
          hL.record?_duplicate (List.mem_map_of_mem hw)
        refine iff_of_false (by simp [hnone]) fun h => ?_
        have honce := h.once f
        rw [Record.namings_cons, if_pos rfl] at honce
        omega

end Lawful

end Library

/-! ## Compact texts -/

namespace Tree

/-- Values with nothing but commas between them. -/
private theorem Items.of_spelled {α : Type} {v : α → Tree} {text : α → List Char} (xs : List α)
    (hv : ∀ x, (v x).Spelled (text x)) : Items (xs.map v) ([','].intercalate (xs.map text)) := by
  induction xs with
  | nil => exact .none blanks_nil
  | cons x xs ih =>
    cases xs with
    | nil => simpa using Items.last (.of_spelled (hv x))
    | cons y ys =>
      have hmore := Items.more (.of_spelled (hv x)) ih
      simp only [List.map_cons, List.intercalate_cons_cons] at hmore ⊢
      simpa using hmore

/-- Members with nothing but commas between them. -/
private theorem Members.of_spelled {α : Type} {key : α → String} {v : α → Tree}
    {text : α → List Char} (xs : List α) (hkey : ∀ x, (key x).toList.all Part.isPlain = true)
    (hv : ∀ x, (v x).Spelled (text x)) :
    Members (xs.map fun x => (some (key x), v x))
      ([','].intercalate (xs.map fun x =>
        '"' :: ((key x).toList ++ ['"']) ++ ':' :: text x)) := by
  induction xs with
  | nil => exact .none blanks_nil
  | cons x xs ih =>
    have hx := Key.of_quotation (.of_plain (hkey x))
    cases xs with
    | nil => simpa using Members.last hx (.of_spelled (hv x))
    | cons y ys =>
      have hmore := Members.more hx (.of_spelled (hv x)) ih
      simp only [List.map_cons, List.intercalate_cons_cons] at hmore ⊢
      simpa using hmore

end Tree

/-! ## Written records -/

theorem toList_commas (texts : List String) :
    (commas texts).toList = [','].intercalate (texts.map String.toList) :=
  String.toList_intercalate

private theorem Library.toList_writeList (x : R.Values) : (L.writeList R x).toList =
    '[' :: ([','].intercalate (R.keys.all.map fun f => (L.text (R.shape f) (x f)).toList) ++
      [']']) := by
  simp only [Library.writeList, String.toList_append, toList_commas, List.map_map, Function.comp_def]
  rfl

namespace Library.Lawful

variable (hL : L.Lawful)
include hL

private theorem exists_written_required {α : Type} (s : Scalar α) (a : α) :
    ∃ v ≠ .null, L.value? (.required s) v = some a ∧
      v.Spelled (L.text (.required s) a).toList := by
  cases s with
  | boolean =>
    refine ⟨.bool a, nofun, hL.value?_boolean a, ?_⟩
    rw [hL.text_boolean]
    cases a with
    | true => exact .true
    | false => exact .false
  | unsigned =>
    obtain ⟨digits, hspelled, hvalue⟩ := Number.exists_spelled_repr a.toNat
    refine ⟨.number ⟨false, digits, none, none⟩, nofun, hL.value?_unsigned hvalue, ?_⟩
    rw [hL.text_unsigned]
    show Tree.Spelled _ (Nat.repr a.toNat).toList
    rw [Nat.toList_repr]
    exact .number hspelled
  | names N =>
    refine ⟨.string (some (N.name a)), nofun, hL.value?_name N a, ?_⟩
    rw [hL.text_name]
    simpa using Tree.Spelled.string (.of_plain (N.plain a))

/-- What is written of a field is the text of a value that gives the field what it has. -/
theorem exists_written {α : Type} (s : Shape α) (a : α) :
    ∃ v, L.value? s v = some a ∧ v.Spelled (L.text s a).toList := by
  cases s with
  | required s =>
    obtain ⟨v, -, hv, hspelled⟩ := hL.exists_written_required s a
    exact ⟨v, hv, hspelled⟩
  | optional s =>
    cases a with
    | none => exact ⟨.null, hL.value?_null s, hL.text_none s ▸ .null⟩
    | some a =>
      obtain ⟨v, hnull, hv, hspelled⟩ := hL.exists_written_required s a
      refine ⟨v, ?_, hL.text_some s a ▸ hspelled⟩
      rw [hL.value?_optional s hnull, hv, Option.map_some]

private theorem toList_write (x : R.Values) : (L.write R x).toList =
    '{' :: ([','].intercalate (R.keys.all.map fun f =>
      '"' :: ((R.keys.name f).toList ++ ['"']) ++ ':' :: (L.text (R.shape f) (x f)).toList) ++
        ['}']) := by
  have hmember (f : R.Field) :
      ("\"" ++ R.keys.name f ++ "\":" ++ L.text (R.shape f) (x f)).toList =
        '"' :: ((R.keys.name f).toList ++ ['"']) ++ ':' :: (L.text (R.shape f) (x f)).toList := by
    have hopen : "\"".toList = ['"'] := rfl
    have hclose : "\":".toList = ['"', ':'] := rfl
    simp only [String.toList_append, hopen, hclose, List.append_assoc, List.cons_append,
      List.nil_append]
  rw [hL.write_eq]
  simp only [String.toList_append, toList_commas, List.map_map, Function.comp_def, hmember]
  rfl

/-- A record is read back from the object that is written of it. -/
theorem read_write (x : R.Values) : (L.read R (L.write R x)).toOption = some x := by
  choose v hv hspelled using fun f => hL.exists_written (R.shape f) (x f)
  have htext : (Tree.ofMembers (R.keys.all.map fun f => (R.keys.name f, v f))).Document
      (L.write R x) := by
    have hmembers := Tree.Members.of_spelled R.keys.all R.keys.plain hspelled
    rw [Tree.Document, hL.toList_write, Tree.ofMembers, List.map_map]
    exact .of_spelled (.object hmembers)
  rw [hL.read_document htext]
  exact hL.record?_ofMembers_iff.2 (.all hv)

/-- A record is read back from the array that is written of it. -/
theorem read_writeList (x : R.Values) : (L.read R (L.writeList R x)).toOption = some x := by
  choose v hv hspelled using fun f => hL.exists_written (R.shape f) (x f)
  have htext : (Tree.array (R.keys.all.map v)).Document (L.writeList R x) := by
    rw [Tree.Document, toList_writeList]
    exact .of_spelled (.array (.of_spelled R.keys.all hspelled))
  rw [hL.read_document htext]
  exact hL.record?_array hv

end Library.Lawful

end SqlExpr.Json
