-- SUMMARY: The settings of a rendering: how values are written, the case of keywords, the depth limit, quoting.

/-!
# Settings

The settings, and their fields with the names that these and their alternatives have in documents.
-/

namespace SqlExpr

/-- How values that are not marked inline are written. -/
inductive ParamStyle
  /-- The placeholder of the dialect. -/
  | dialect
  /-- Always `?`. -/
  | positional
  /-- Literals; nothing is bound. -/
  | inline
  deriving DecidableEq, Repr

namespace ParamStyle

def all : List ParamStyle := [.dialect, .positional, .inline]

def name : ParamStyle → String
  | .dialect => "dialect"
  | .positional => "positional"
  | .inline => "inline"

end ParamStyle

/-- The letter case of keywords and function names. -/
inductive KeywordCase
  | upper
  | lower
  deriving DecidableEq, Repr

namespace KeywordCase

def all : List KeywordCase := [.upper, .lower]

def name : KeywordCase → String
  | .upper => "upper"
  | .lower => "lower"

/-- Write an upper-case token in the case. Only ASCII letters have one. -/
def apply : KeywordCase → (token : String) → String
  | .upper, token => token
  | .lower, token => token.map Char.toLower

end KeywordCase

structure Settings where
  paramStyle : ParamStyle := .dialect
  keywordCase : KeywordCase := .upper
  /-- How deep expressions may nest; without a bound if absent. -/
  maxDepth : Option UInt64 := none
  /-- Quote the names of columns and tables. -/
  quoteIdentifiers : Bool := false
  deriving DecidableEq, Repr, Inhabited

/-! ## Fields -/

/-- The fields of the settings, in the order of their declaration. -/
inductive SettingsField
  | paramStyle
  | keywordCase
  | maxDepth
  | quoteIdentifiers
  deriving DecidableEq, Repr

namespace SettingsField

def all : List SettingsField := [.paramStyle, .keywordCase, .maxDepth, .quoteIdentifiers]

def key : SettingsField → String
  | .paramStyle => "param_style"
  | .keywordCase => "keyword_case"
  | .maxDepth => "max_depth"
  | .quoteIdentifiers => "quote_identifiers"

/-- The settings that a field chooses from. -/
def Setting : SettingsField → Type
  | .paramStyle => ParamStyle
  | .keywordCase => KeywordCase
  | .maxDepth => Option UInt64
  | .quoteIdentifiers => Bool

end SettingsField

/-- The setting of a field. -/
def Settings.get (s : Settings) : (f : SettingsField) → f.Setting
  | .paramStyle => s.paramStyle
  | .keywordCase => s.keywordCase
  | .maxDepth => s.maxDepth
  | .quoteIdentifiers => s.quoteIdentifiers

end SqlExpr
