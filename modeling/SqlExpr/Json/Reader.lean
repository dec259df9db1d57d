-- SUMMARY: A library for JSON that reads token by token, up to the first fault.
import SqlExpr.Json.Fault
import SqlExpr.Json.Library
import SqlExpr.Json.Skip

/-!
# Reading records token by token

`tokenwise` is a library that reads a record in the order of the text and stops at the first fault,
so that it can say which one it is. A record may be given as an object, with fields left out and
unknown members, or as an array of values in the order of the fields.
-/

namespace SqlExpr.Json

variable {α : Type}

/-! ## Values -/

/-- The fault of a value that is not the wanted one. Lists and objects are not read further. -/
def mismatch (wanted : WantedValue) : List Token → Fault
  | .null :: _ => .invalidType .null wanted
  | .bool b :: _ => .invalidType (.bool b) wanted
  | .number n :: _ =>
    match n.value? with
    | some value => .invalidType (.number value) wanted
    | none => .malformed
  | .string (some s) :: _ => .invalidType (.string s) wanted
  | .openBracket :: _ => .invalidType .sequence wanted
  | .openBrace :: _ => .invalidType .map wanted
  | _ => .malformed

/-- The element of a name. -/
def Names.find (N : Names α) (name : String) : Except Fault α :=
  match N.ofName? name with
  | some a => .ok a
  | none => .error (.unknownVariant name (N.all.map N.name))

namespace Scalar

def readBoolean : List Token → Except Fault (Bool × List Token)
  | .bool b :: ts => .ok (b, ts)
  | ts => .error (mismatch .boolean ts)

def readUnsigned : List Token → Except Fault (UInt64 × List Token)
  | .number n :: ts =>
    match n.value? with
    | some (.natural n) => .ok (n, ts)
    | some (.negative n) => .error (.negative n)
    | some value => .error (.invalidType (.number value) .unsigned)
    | none => .error .malformed
  | ts => .error (mismatch .unsigned ts)

/-- One of several alternatives: its name as a string, or as the key of an object that holds
    `null` alone. -/
def readName (N : Names α) : List Token → Except Fault (α × List Token)
  | .string (some name) :: ts => (N.find name).map (·, ts)
  | .openBrace :: .string (some name) :: ts => do
    let a ← N.find name
    match ts with
    | .colon :: .null :: .closeBrace :: ts => return (a, ts)
    | .colon :: .null :: _ => throw .malformed
    | .colon :: ts => throw (mismatch .unit ts)
    | _ => throw .malformed
  | _ => .error .malformed

def read : Scalar α → List Token → Except Fault (α × List Token)
  | .boolean => readBoolean
  | .unsigned => readUnsigned
  | .names N => readName N

def boolean? : Tree → Option Bool
  | .bool b => some b
  | _ => none

def unsigned? : Tree → Option UInt64
  | .number n =>
    match n.value? with
    | some (.natural n) => some n
    | _ => none
  | _ => none

def ofName? (N : Names α) : Tree → Option α
  | .string (some name) => N.ofName? name
  | .object [(some name, .null)] => N.ofName? name
  | _ => none

/-- What is read from the tokens of a value. -/
def value? : Scalar α → Tree → Option α
  | .boolean => boolean?
  | .unsigned => unsigned?
  | .names N => ofName? N

def text : Scalar α → α → String
  | .boolean, b => if b then "true" else "false"
  | .unsigned, n => toString n.toNat
  | .names N, a => "\"" ++ N.name a ++ "\""

private theorem length_lt_of_read {s : Scalar α} {ts rest : List Token} {a : α}
    (h : s.read ts = .ok (a, rest)) : rest.length < ts.length := by
  cases s with
  | boolean =>
    simp only [read] at h
    unfold readBoolean at h
    split at h
    · cases h; simp
    · cases h
  | unsigned =>
    simp only [read] at h
    unfold readUnsigned at h
    split at h
    · split at h <;> cases h
      simp
    · cases h
  | names N =>
    simp only [read] at h
    unfold readName at h
    split at h
    · next name ts =>
      cases hname : N.find name with
      | error e => simp [hname, Except.map] at h
      | ok b => simp [hname, Except.map] at h; simp [h.2]
    · next name ts =>
      cases hname : N.find name with
      | error e => simp [hname, bind, Except.bind] at h
      | ok b =>
        simp only [hname, bind, Except.bind] at h
        split at h
        · cases h; simp only [List.length_cons]; omega
        all_goals cases h
    · cases h

end Scalar

namespace Shape

def readOptional (s : Scalar α) : List Token → Except Fault (Option α × List Token)
  | .null :: ts => .ok (none, ts)
  | ts => (s.read ts).map fun (a, ts) => (some a, ts)

def read : Shape α → List Token → Except Fault (α × List Token)
  | .required s => s.read
  | .optional s => readOptional s

def optional? (s : Scalar α) : Tree → Option (Option α)
  | .null => some none
  | v => (s.value? v).map some

/-- What is read from the tokens of a value. -/
def value? : Shape α → Tree → Option α
  | .required s => s.value?
  | .optional s => optional? s

def text : Shape α → α → String
  | .required s, a => s.text a
  | .optional _, none => "null"
  | .optional s, some a => s.text a

/-- A field takes up at least one token. -/
private theorem length_lt_of_read {s : Shape α} {ts rest : List Token} {a : α}
    (h : s.read ts = .ok (a, rest)) : rest.length < ts.length := by
  cases s with
  | required s => exact Scalar.length_lt_of_read h
  | optional s =>
    simp only [read] at h
    unfold readOptional at h
    split at h
    · cases h; simp
    · cases hread : s.read ts with
      | error e => simp [hread, Except.map] at h
      | ok p =>
        simp only [hread, Except.map, Except.ok.injEq, Prod.mk.injEq] at h
        exact h.2 ▸ Scalar.length_lt_of_read hread

end Shape

/-! ## Records -/

namespace Record

variable {R : Record}

/-- The fields that a text has given so far. -/
abbrev Draft (R : Record) : Type := (f : R.Field) → Option (R.Value f)

namespace Draft

def empty : R.Draft := fun _ => none

/-- Fields that were not given have their defaults. -/
def values (d : R.Draft) : R.Values := fun f => (d f).getD (R.default f)

def give (d : R.Draft) (f : R.Field) (y : R.Value f) : R.Draft := R.keys.set d f (some y)

/-- Read the value of a field. -/
def readField (d : R.Draft) (f : R.Field) (ts : List Token) :
    Except Fault (R.Draft × List Token) :=
  ((R.shape f).read ts).map fun (y, ts) => (d.give f y, ts)

/-- Read what follows the key of a member. A field is given only once; the values of unknown
    keys are passed over. -/
def readMember (d : R.Draft) (key : String) (ts : List Token) :
    Except Fault (R.Draft × List Token) :=
  match R.keys.ofName? key with
  | some f =>
    if (d f).isSome then .error (.duplicateField key)
    else
      match ts with
      | .colon :: ts => d.readField f ts
      | _ => .error .malformed
  | none =>
    match ts with
    | .colon :: ts =>
      match Token.skip? ts with
      | some ts => .ok (d, ts)
      | none => .error .malformed
    | _ => .error .malformed

/-- Read the values of an array, one for each of the fields, up to the end of the array. -/
def readItems (d : R.Draft) : List R.Field → List Token → Except Fault (R.Draft × List Token)
  | [], _ => .error .malformed
  | f :: fields, ts => do
    let (d, ts) ← d.readField f ts
    match ts with
    | .closeBracket :: ts => return (d, ts)
    | .comma :: ts => d.readItems fields ts
    | _ => throw .malformed

private theorem length_lt_of_readField {d d' : R.Draft} {f : R.Field} {ts rest : List Token}
    (h : d.readField f ts = .ok (d', rest)) : rest.length < ts.length := by
  unfold readField at h
  cases hread : (R.shape f).read ts with
  | error e => simp [hread, Except.map] at h
  | ok p =>
    simp only [hread, Except.map, Except.ok.injEq, Prod.mk.injEq] at h
    exact h.2 ▸ Shape.length_lt_of_read hread

private theorem length_lt_of_readMember {d d' : R.Draft} {key : String} {ts rest : List Token}
    (h : d.readMember key ts = .ok (d', rest)) : rest.length < ts.length := by
  unfold readMember at h
  split at h
  · split at h
    · cases h
    · split at h
      · have := length_lt_of_readField h
        simp only [List.length_cons]; omega
      · cases h
  · split at h
    · split at h
      · next hs =>
        cases h
        have := Token.length_lt_of_skip? hs
        simp only [List.length_cons]; omega
      · cases h
    · cases h

/-- Read the members of an object from the first key on, up to the end of the object. -/
def readMembers (d : R.Draft) (ts : List Token) : Except Fault (R.Draft × List Token) :=
  match ts with
  | .string (some key) :: ts =>
    match _h : d.readMember key ts with
    | .error e => .error e
    | .ok (d, .closeBrace :: ts) => .ok (d, ts)
    | .ok (d, .comma :: ts) => d.readMembers ts
    | .ok _ => .error .malformed
  | _ => .error .malformed
termination_by ts.length
decreasing_by
  have := length_lt_of_readMember _h
  simp only [List.length_cons] at this ⊢
  omega

/-- What is read from the members of an object. -/
def ofMembers? (d : R.Draft) : List (Option String × Tree) → Option R.Draft
  | [] => some d
  | (none, _) :: _ => none
  | (some key, v) :: ms =>
    match R.keys.ofName? key with
    | some f =>
      if (d f).isSome then none
      else ((R.shape f).value? v).bind fun y => (d.give f y).ofMembers? ms
    | none => d.ofMembers? ms

/-- What is read from the values of an array. -/
def ofItems? (d : R.Draft) : List R.Field → List Tree → Option R.Draft
  | _, [] => some d
  | [], _ :: _ => none
  | f :: fields, v :: vs =>
    ((R.shape f).value? v).bind fun y => (d.give f y).ofItems? fields vs

end Draft

/-- Read an object or an array. -/
def readTokens (R : Record) : List Token → Except Fault (R.Draft × List Token)
  | .openBrace :: .closeBrace :: ts => .ok (.empty, ts)
  | .openBrace :: ts => Draft.empty.readMembers ts
  | .openBracket :: .closeBracket :: ts => .ok (.empty, ts)
  | .openBracket :: ts => Draft.empty.readItems R.keys.all ts
  | ts => .error (mismatch (.record R.name) ts)

/-- What is read from the tokens of a value. -/
def draft? (R : Record) : Tree → Option R.Draft
  | .object members => Draft.empty.ofMembers? members
  | .array items => Draft.empty.ofItems? R.keys.all items
  | _ => none

/-- Read a text. Nothing may follow the record. -/
def readText (R : Record) (text : String) : Except Fault R.Values :=
  match R.readTokens (Token.ofText text) with
  | .ok (d, []) => .ok d.values
  | .ok _ => .error .malformed
  | .error e => .error e

def text (R : Record) (x : R.Values) : String :=
  "\x7b" ++ commas (R.keys.all.map fun f =>
    "\"" ++ R.keys.name f ++ "\":" ++ (R.shape f).text (x f)) ++ "\x7d"

end Record

/-- The library that reads token by token. -/
def tokenwise : Library where
  Error := Fault
  value? := Shape.value?
  record? R v := (R.draft? v).map Record.Draft.values
  read := Record.readText
  text := Shape.text
  write := Record.text

end SqlExpr.Json
