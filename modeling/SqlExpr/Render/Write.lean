-- SUMMARY: The writes that a rendering is made of.
import SqlExpr.Expr.Basic

/-!
# Writes

Rendering an expression is a sequence of writes. What a write looks like depends on
the dialect and the settings; which writes are made does not depend on the settings.
-/

namespace SqlExpr

inductive Keyword
  | overlay
  | placing
  | from
  | for
  | and
  | or
  | not
  deriving DecidableEq, Repr

namespace Keyword

def all : List Keyword := [.overlay, .placing, .from, .for, .and, .or, .not]

def text : Keyword → String
  | .overlay => "OVERLAY"
  | .placing => "PLACING"
  | .from => "FROM"
  | .for => "FOR"
  | .and => "AND"
  | .or => "OR"
  | .not => "NOT"

end Keyword

def Connective.keyword : Connective → Keyword
  | .and => .and
  | .or => .or

/-- One thing to write. -/
inductive Write
  | keyword (k : Keyword)
  /-- SQL text as it stands. -/
  | sql (text : String)
  /-- The name that the dialect has for a function. -/
  | functionName (f : Builtin)
  | identifier (c : Column)
  /-- A value, as a bind parameter or as a literal. -/
  | value (c : Constant)
  deriving DecidableEq, Repr

/-- The constant that is written, if one is. -/
def Write.constant? : Write → Option Constant
  | .value c => some c
  | _ => none

end SqlExpr
