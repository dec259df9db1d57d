-- SUMMARY: Settings documents: what a JSON library is told of the settings, reading and writing them.
import SqlExpr.Json.Library
import SqlExpr.Settings.Basic

/-!
# Settings documents

`Settings.record` declares the settings to a JSON library: the keys of the fields, the names of
their alternatives, their types and their defaults. Reading a document (`Settings.ofJson`) and
writing one (`Settings.toJson`) is left to the library.
-/

namespace SqlExpr

open Json (Library)

def ParamStyle.names : Json.Names ParamStyle where
  all := ParamStyle.all
  name := ParamStyle.name
  mem_all a := by cases a <;> decide
  nodup_all := by decide
  name_inj {a b} := by cases a <;> cases b <;> decide
  plain a := by cases a <;> decide

def KeywordCase.names : Json.Names KeywordCase where
  all := KeywordCase.all
  name := KeywordCase.name
  mem_all a := by cases a <;> decide
  nodup_all := by decide
  name_inj {a b} := by cases a <;> cases b <;> decide
  plain a := by cases a <;> decide

namespace SettingsField

def keys : Json.Names SettingsField where
  all := SettingsField.all
  name := SettingsField.key
  mem_all f := by cases f <;> decide
  nodup_all := by decide
  name_inj {f g} := by cases f <;> cases g <;> decide
  plain f := by cases f <;> decide

def shape : (f : SettingsField) → Json.Shape f.Setting
  | .paramStyle => .required (.names ParamStyle.names)
  | .keywordCase => .required (.names KeywordCase.names)
  | .maxDepth => .optional .unsigned
  | .quoteIdentifiers => .required .boolean

end SettingsField

/-- Why a settings document is rejected. -/
inductive SettingsError (E : Type)
  /-- The library cannot read it. -/
  | parse (e : E)

/-- The message, from what the library says of its error, if it says anything. -/
def SettingsError.message {E : Type} (reason? : E → Option String) : SettingsError E → String
  | .parse e =>
    match reason? e with
    | none => "invalid render settings"
    | some reason => s!"invalid render settings: {reason}"

namespace Settings

/-- The settings as a record. -/
def record : Json.Record where
  name := "RenderSettings"
  Field := SettingsField
  keys := SettingsField.keys
  Value := SettingsField.Setting
  shape := SettingsField.shape
  default := ({} : Settings).get

def values (s : Settings) : record.Values := s.get

def ofValues (x : record.Values) : Settings where
  paramStyle := x SettingsField.paramStyle
  keywordCase := x SettingsField.keywordCase
  maxDepth := x SettingsField.maxDepth
  quoteIdentifiers := x SettingsField.quoteIdentifiers

@[simp] theorem ofValues_values (s : Settings) : ofValues s.values = s := rfl

@[simp] theorem values_ofValues (x : record.Values) : (ofValues x).values = x := by
  funext f
  cases f <;> rfl

/-- The settings that a JSON text describes. -/
def ofJson (L : Library) (text : String) : Except (SettingsError L.Error) Settings :=
  match L.read record text with
  | .ok x => .ok (ofValues x)
  | .error e => .error (.parse e)

def toJson (L : Library) (s : Settings) : String := L.write record s.values

/-- The values of the fields as a JSON array, without blanks. -/
def toJsonList (L : Library) (s : Settings) : String := L.writeList record s.values

end Settings

end SqlExpr
