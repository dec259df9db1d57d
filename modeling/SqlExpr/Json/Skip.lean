-- SUMMARY: Passing over one JSON value of any nesting.
import SqlExpr.Json.Token

/-!
# Skipping values

A reader passes over the values it has no use for. They have to be well formed, but
numbers may be of any size and strings need not stand for characters.
-/

namespace SqlExpr.Json.Token

/-- What an unfinished array or object goes on with. -/
inductive Nesting
  | array
  | object
  deriving DecidableEq, Repr

mutual
/-- Pass over a value inside of the given unfinished arrays and objects, the innermost first, and
    over all that finishes them. Returns the tokens that follow. -/
def skipValue (nesting : List Nesting) : List Token → Option (List Token)
  | .null :: ts | .bool _ :: ts | .number _ :: ts | .string _ :: ts => skipRest nesting ts
  | .openBracket :: .closeBracket :: ts => skipRest nesting ts
  | .openBracket :: ts => skipValue (.array :: nesting) ts
  | .openBrace :: .closeBrace :: ts => skipRest nesting ts
  | .openBrace :: .string _ :: .colon :: ts => skipValue (.object :: nesting) ts
  | _ => none

/-- Pass over what finishes arrays and objects after one of their values. -/
def skipRest (nesting : List Nesting) (ts : List Token) : Option (List Token) :=
  match nesting, ts with
  | [], ts => some ts
  | .array :: nesting, .comma :: ts => skipValue (.array :: nesting) ts
  | .array :: nesting, .closeBracket :: ts => skipRest nesting ts
  | .object :: nesting, .comma :: .string _ :: .colon :: ts => skipValue (.object :: nesting) ts
  | .object :: nesting, .closeBrace :: ts => skipRest nesting ts
  | _, _ => none
end

/-- Pass over one value. -/
def skip? : List Token → Option (List Token) := skipValue []

mutual
theorem length_lt_of_skipValue {nesting : List Nesting} {ts rest : List Token}
    (h : skipValue nesting ts = some rest) : rest.length < ts.length := by
  unfold skipValue at h
  split at h
  case h_9 => cases h
  case h_6 | h_8 =>
    have := length_lt_of_skipValue h
    simp only [List.length_cons]; omega
  all_goals
    have := length_le_of_skipRest h
    simp only [List.length_cons]; omega
termination_by ts.length

private theorem length_le_of_skipRest {nesting : List Nesting} {ts rest : List Token}
    (h : skipRest nesting ts = some rest) : rest.length ≤ ts.length := by
  unfold skipRest at h
  split at h
  case h_1 => cases h; exact Nat.le_refl _
  case h_6 => cases h
  case h_2 | h_4 =>
    have := length_lt_of_skipValue h
    simp only [List.length_cons]; omega
  all_goals
    have := length_le_of_skipRest h
    simp only [List.length_cons]; omega
termination_by ts.length
end

/-- A value takes up at least one token. -/
theorem length_lt_of_skip? {ts rest : List Token} (h : skip? ts = some rest) :
    rest.length < ts.length :=
  length_lt_of_skipValue h

end SqlExpr.Json.Token
