-- SUMMARY: What a library for JSON is told of a record, what it offers, and which laws it keeps.
import SqlExpr.Json.Grammar

/-!
# JSON libraries

Settings are read from JSON and written as JSON by a library. Of a record it is told only what a
`Record` lists: its fields, their names, types and defaults. `Library` is what it offers for any
record, and `Library.Lawful` what it documents: only the value counts that a text writes; unknown
members are passed over, absent fields have their defaults, repeated ones are refused; what is
written has nothing but the fields in their order.
-/

namespace SqlExpr.Json

/-! ## Names -/

/-- All elements of a finite type, under different names that need no escapes. -/
structure Names (α : Type) where
  all : List α
  name : α → String
  mem_all (a : α) : a ∈ all
  nodup_all : all.Nodup
  name_inj {a b : α} (h : name a = name b) : a = b
  plain (a : α) : (name a).toList.all Part.isPlain = true

namespace Names

variable {α : Type} (N : Names α) {a b : α}

/-- The element of a name. -/
def ofName? (name : String) : Option α := N.all.find? (N.name · == name)

theorem ofName?_eq_some_iff {name : String} : N.ofName? name = some a ↔ N.name a = name := by
  constructor
  · intro h
    exact beq_iff_eq.1 (List.find?_some (p := (N.name · == name)) h)
  · rintro rfl
    obtain ⟨b, hb⟩ : ∃ b, N.ofName? (N.name a) = some b :=
      Option.isSome_iff_exists.1 (List.find?_isSome.2 ⟨a, N.mem_all a, beq_self_eq_true _⟩)
    have hname := beq_iff_eq.1 (List.find?_some (p := (N.name · == N.name a)) hb)
    rwa [N.name_inj hname] at hb

theorem ofName?_eq_none_iff {name : String} : N.ofName? name = none ↔ ∀ a, N.name a ≠ name := by
  simp only [Option.eq_none_iff_forall_ne_some, ne_eq, ofName?_eq_some_iff]

/-- Put `y` in the place of what `x` has at `a`. -/
def set {β : α → Type} (x : (a : α) → β a) (a : α) (y : β a) : (b : α) → β b :=
  fun b => if h : N.name a = N.name b then N.name_inj h ▸ y else x b

variable {β : α → Type} {x : (a : α) → β a} {y : β a}

@[simp] theorem set_self : N.set x a y a = y := dif_pos rfl

theorem set_of_ne (h : b ≠ a) : N.set x a y b = x b :=
  dif_neg fun hname => h (N.name_inj hname).symm

end Names

/-! ## Records -/

/-- The types of single values. -/
inductive Scalar : Type → Type 1
  | boolean : Scalar Bool
  /-- Integers of 64 bits without sign. -/
  | unsigned : Scalar UInt64
  /-- Alternatives that are written by their names. -/
  | names {α : Type} (N : Names α) : Scalar α

/-- The types of fields. -/
inductive Shape : Type → Type 1
  | required {α : Type} (s : Scalar α) : Shape α
  /-- A value, or `null` for none. -/
  | optional {α : Type} (s : Scalar α) : Shape (Option α)

/-- A type of records. -/
structure Record where
  name : String
  Field : Type
  /-- The fields in the order in which they are declared, and their keys. -/
  keys : Names Field
  Value : Field → Type
  shape (f : Field) : Shape (Value f)
  /-- What a field has that is not given. -/
  default (f : Field) : Value f

/-- The values of all fields. -/
abbrev Record.Values (R : Record) : Type := (f : R.Field) → R.Value f

/-! ## Libraries -/

/-- A library that reads and writes records as JSON. -/
structure Library where
  /-- Why a text is rejected. -/
  Error : Type
  /-- What a field is given by a JSON value; `none` if the value is not acceptable. -/
  value? {α : Type} (s : Shape α) (v : Tree) : Option α
  /-- What a record is given by a JSON value; `none` if the value is not acceptable. -/
  record? (R : Record) (v : Tree) : Option R.Values
  read (R : Record) (text : String) : Except Error R.Values
  /-- The text of a field. -/
  text {α : Type} (s : Shape α) (a : α) : String
  write (R : Record) (x : R.Values) : String

/-- The members of an object, or the values of an array, with commas between them. -/
def commas (texts : List String) : String := ",".intercalate texts

namespace Library

/-- The values of all fields as an array, without blanks. -/
def writeList (L : Library) (R : Record) (x : R.Values) : String :=
  "[" ++ commas (R.keys.all.map fun f => L.text (R.shape f) (x f)) ++ "]"

/-- What the library documents. -/
structure Lawful (L : Library) : Prop where
  /-- Of a text only the value counts that it writes. -/
  read_document {R : Record} {v : Tree} {text : String} (h : v.Document text) :
    (L.read R text).toOption = L.record? R v
  value?_boolean (b : Bool) : L.value? (.required .boolean) (.bool b) = some b
  /-- Digits without sign, fraction and exponent are an integer if 64 bits hold it. -/
  value?_unsigned {digits : List Nat} {n : UInt64} (h : Number.ofDigits digits = n.toNat) :
    L.value? (.required .unsigned) (.number ⟨false, digits, none, none⟩) = some n
  value?_name {α : Type} (N : Names α) (a : α) :
    L.value? (.required (.names N)) (.string (some (N.name a))) = some a
  value?_null {α : Type} (s : Scalar α) : L.value? (.optional s) .null = some none
  value?_optional {α : Type} (s : Scalar α) {v : Tree} (h : v ≠ .null) :
    L.value? (.optional s) v = (L.value? (.required s) v).map some
  /-- Fields that are not given have their defaults. -/
  record?_nil (R : Record) : L.record? R (.object []) = some R.default
  /-- Members with unknown keys are passed over. -/
  record?_unknown {R : Record} {key : String} {v : Tree} {ms : List (Option String × Tree)}
    (h : ∀ f, R.keys.name f ≠ key) :
    L.record? R (.object ((some key, v) :: ms)) = L.record? R (.object ms)
  /-- A member whose key does not come again gives the field its value. -/
  record?_known {R : Record} {f : R.Field} {v : Tree} {ms : List (Option String × Tree)}
    (h : ∀ w, (some (R.keys.name f), w) ∉ ms) :
    L.record? R (.object ((some (R.keys.name f), v) :: ms)) = do
      let y ← L.value? (R.shape f) v
      let x ← L.record? R (.object ms)
      return R.keys.set x f y
  /-- The key of a field must not come twice. -/
  record?_duplicate {R : Record} {f : R.Field} {v w : Tree} {ms : List (Option String × Tree)}
    (h : (some (R.keys.name f), w) ∈ ms) :
    L.record? R (.object ((some (R.keys.name f), v) :: ms)) = none
  /-- A record can be given as an array of the values of its fields. -/
  record?_array {R : Record} {v : R.Field → Tree} {x : R.Values}
    (h : ∀ f, L.value? (R.shape f) (v f) = some (x f)) :
    L.record? R (.array (R.keys.all.map v)) = some x
  text_boolean (b : Bool) : L.text (.required .boolean) b = if b then "true" else "false"
  text_unsigned (n : UInt64) : L.text (.required .unsigned) n = toString n.toNat
  text_name {α : Type} (N : Names α) (a : α) :
    L.text (.required (.names N)) a = "\"" ++ N.name a ++ "\""
  text_none {α : Type} (s : Scalar α) : L.text (.optional s) none = "null"
  text_some {α : Type} (s : Scalar α) (a : α) :
    L.text (.optional s) (some a) = L.text (.required s) a
  /-- A record is written as an object of its fields, without blanks. -/
  write_eq {R : Record} (x : R.Values) : L.write R x =
    "\x7b" ++ commas (R.keys.all.map fun f =>
      "\"" ++ R.keys.name f ++ "\":" ++ L.text (R.shape f) (x f)) ++ "\x7d"

end Library

end SqlExpr.Json
